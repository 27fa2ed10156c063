import SealedTx.Digest
import SealedTx.Proofs.Codec.Detect
import SealedTx.Proofs.Payload.View

/-!
# Payloads on their way

On its way a payload is written and read in either format, is cut down to the view of a recipient,
and gets a recipient if it names none. A payload that names recipients is changed by the second of
these alone (`Hop.run_eq_self`), and by that only once: a view has no view but itself. So all ways
come down to one view, or to none (`relay_eq_ok_iff`), and nobody gets another recipient's box on a
way that leads over a view (`relay_collapses`).
-/

namespace SealedTx

/-! ## Ways -/

/-- What happens to a payload on its way. -/
inductive Hop where
  /-- It is cut down to the view of a recipient. -/
  | view (r : PublicKey)
  /-- It gets a recipient if it names none. -/
  | name (r : PublicKey)
  /-- It is written in a format, and read in the one that is told. -/
  | wire (c : Codec)

namespace Hop

def run : Hop → Payload → Except EnclaveError Payload
  | view r, p => p.forRecipient r
  | name r, p => .ok (p.withRecipient r)
  | wire c, p => Codec.decodeAny (c.encode p)

/-- The recipient of a view. -/
def viewer? : Hop → Option PublicKey
  | view r => some r
  | name _ | wire _ => none

/-- The recipients of the views on a way. -/
def viewers (hops : List Hop) : List PublicKey := hops.filterMap viewer?

/-- **Nothing but a view changes a payload** that names recipients. -/
theorem run_eq_self {p : Payload} (hp : p.Sized) (hr : p.recipients ≠ []) {hop : Hop}
    (h : hop.viewer? = none) : hop.run p = .ok p := by
  cases hop with
  | view r => cases h
  | name r => exact congrArg Except.ok (if_neg hr)
  | wire c => exact Codec.decodeAny_encode c hp

end Hop

namespace Payload

open Codec (samplePayload)
open Hop (viewers)

variable {p q v : Payload} {r : PublicKey}

/-- What arrives at the end of a way. -/
def relay (p : Payload) (hops : List Hop) : Except EnclaveError Payload :=
  hops.foldlM (fun p hop => hop.run p) p

/-- Only the views of a way count. -/
theorem relay_eq_views (hops : List Hop) : ∀ {p : Payload}, p.Sized → p.recipients ≠ [] →
    p.relay hops = (viewers hops).foldlM forRecipient p := by
  induction hops with
  | nil => intro p _ _; rfl
  | cons hop hops ih =>
    intro p hp hr
    unfold relay viewers
    cases hviewer : hop.viewer? with
    | none =>
      rw [List.filterMap_cons_none hviewer, List.foldlM_cons, Hop.run_eq_self hp hr hviewer]
      exact ih hp hr
    | some r =>
      obtain rfl : hop = .view r := by
        cases hop <;> cases hviewer
        rfl
      rw [List.filterMap_cons_some hviewer, List.foldlM_cons, List.foldlM_cons]
      show p.forRecipient r >>= _ = p.forRecipient r >>= _
      cases hv : p.forRecipient r with
      | error e => rfl
      | ok v => exact ih (sized_of_forRecipient hp hv) (recipients_ne_nil_of_forRecipient hv)

/-- Behind a view there are only views of the same recipient, and all are the same. -/
theorem views_eq_ok_iff (hv : p.forRecipient r = .ok v) (rs : List PublicKey) :
    rs.foldlM forRecipient v = .ok q ↔ (∀ r' ∈ rs, r' = r) ∧ q = v := by
  induction rs with
  | nil =>
    rw [List.foldlM_nil, eq_comm (a := q)]
    simp [pure, Except.pure]
  | cons r' rs ih =>
    rw [List.foldlM_cons, Outcome.bind_eq_ok_iff, List.forall_mem_cons]
    constructor
    · rintro ⟨w, hw, hrest⟩
      obtain ⟨rfl, rfl⟩ := (forRecipient_of_view_iff hv).1 hw
      obtain ⟨hrs, rfl⟩ := ih.1 hrest
      exact ⟨⟨rfl, hrs⟩, rfl⟩
    · rintro ⟨⟨rfl, hrs⟩, rfl⟩
      exact ⟨q, (forRecipient_of_view_iff hv).2 ⟨rfl, rfl⟩, ih.2 ⟨hrs, rfl⟩⟩

/-- **A payload arrives as it was, or as the view of one recipient.** -/
theorem relay_eq_ok_iff (hp : p.Sized) (hr : p.recipients ≠ []) {hops : List Hop} :
    p.relay hops = .ok q ↔ (viewers hops = [] ∧ q = p) ∨
      ∃ r, viewers hops ≠ [] ∧ (∀ r' ∈ viewers hops, r' = r) ∧ p.forRecipient r = .ok q := by
  rw [relay_eq_views hops hp hr]
  cases viewers hops with
  | nil =>
    rw [List.foldlM_nil, eq_comm (a := q)]
    simp [pure, Except.pure]
  | cons r rs =>
    rw [List.foldlM_cons, Outcome.bind_eq_ok_iff]
    constructor
    · rintro ⟨v, hv, hrest⟩
      obtain ⟨hrs, rfl⟩ := (views_eq_ok_iff hv rs).1 hrest
      exact .inr ⟨r, List.cons_ne_nil r rs, List.forall_mem_cons.2 ⟨rfl, hrs⟩, hv⟩
    · rintro (⟨hnil, _⟩ | ⟨r', _, hall, hv⟩)
      · cases hnil
      · obtain ⟨rfl, hrs⟩ := List.forall_mem_cons.1 hall
        exact ⟨q, hv, (views_eq_ok_iff hv rs).2 ⟨hrs, rfl⟩⟩

/-- **All ways come down to one view, or to none.** On a way with views a payload arrives as the view
of the one recipient that they are for, with the box at the recipient's first place and the
recipient in front; on any way it keeps all parts but its recipients and boxes, hence its hash. -/
theorem relay_collapses (hp : p.Sized) (hr : p.recipients ≠ []) {hops : List Hop}
    (h : p.relay hops = .ok q) :
    (viewers hops = [] → q = p) ∧
    (∀ r ∈ viewers hops, (∀ r' ∈ viewers hops, r' = r) ∧ p.forRecipient r = .ok q ∧
      (∃ i box, p.recipientIndex? r = some i ∧ p.boxes[i]? = some box ∧ q.boxes = [box]) ∧
      q.recipients.head? = some r) ∧
    q = p.withView q.recipients q.boxes ∧
    ∀ d, q.transactionHash d = p.transactionHash d := by
  rcases (relay_eq_ok_iff hp hr).1 h with ⟨hnone, rfl⟩ | ⟨r, hsome, hall, hv⟩
  · rw [hnone]
    exact ⟨fun _ => rfl, nofun, rfl, fun _ => rfl⟩
  · obtain ⟨i, box, hi, hbox, rfl⟩ := forRecipient_eq_ok_iff.1 hv
    refine ⟨fun hnone => absurd hnone hsome, fun r' hr' => ?_, rfl, fun _ => rfl⟩
    obtain rfl := hall r' hr'
    exact ⟨hall, hv, ⟨i, box, hi, hbox, rfl⟩, head?_viewKeys p r'⟩

/-- Two recipients validate the state of a payload, so the view of one names both. It still leads to
no view of the other. -/
theorem relay_collapses_sample :
    let first : PublicKey := ⟨List.replicate keySize 6, rfl⟩
    let second : PublicKey := ⟨List.replicate keySize 7, rfl⟩
    samplePayload.Sized ∧ samplePayload.recipients = [first, second] ∧
      (∃ q, samplePayload.relay
          [.wire .legacy, .view second, .name first, .wire .cbor, .view second] = .ok q ∧
        samplePayload.forRecipient second = .ok q ∧ q.boxes = [⟨[]⟩] ∧
        q.recipients.head? = some second) ∧
      ∀ q, samplePayload.relay [.view second, .wire .cbor, .view first] ≠ .ok q := by
  intro first second
  have hp : samplePayload.Sized := by decide
  have hr : samplePayload.recipients ≠ [] := by decide
  refine ⟨hp, rfl, ?_, fun q hq => ?_⟩
  · obtain ⟨q, hq⟩ : ∃ q, samplePayload.forRecipient second = .ok q := ⟨_, rfl⟩
    have hrelay : samplePayload.relay
        [.wire .legacy, .view second, .name first, .wire .cbor, .view second] = .ok q := by
      refine (relay_eq_ok_iff hp hr).2 (.inr ⟨second, ?_, ?_, hq⟩)
      · simp [viewers, Hop.viewer?]
      · simp [viewers, Hop.viewer?]
    obtain ⟨_, hviews, _⟩ := relay_collapses hp hr hrelay
    obtain ⟨_, hview, ⟨i, box, hi, hbox, hboxes⟩, hhead⟩ :=
      hviews second (by simp [viewers, Hop.viewer?])
    -- the second recipient's box is the empty one
    obtain rfl : 1 = i := Option.some.inj hi
    obtain rfl : ⟨[]⟩ = box := Option.some.inj hbox
    exact ⟨q, hrelay, hview, hboxes, hhead⟩
  · obtain ⟨hall, _⟩ :=
      (relay_collapses hp hr hq).2.1 second (by simp [viewers, Hop.viewer?])
    have hfirst : first = second := hall first (by simp [viewers, Hop.viewer?])
    exact absurd hfirst (by decide)

end Payload

end SealedTx
