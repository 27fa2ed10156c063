import SealedTx.Payload.View
import SealedTx.Proofs.Payload

/-!
# Views of a payload

A view keeps the box at the first place of its recipient, and puts the recipient first among the
recipients (`forRecipient_eq_ok_iff`). There is one for every recipient as long as there are as
many boxes as recipients. It is no longer than the payload.

With one box left, and its key in front, a view has no view but itself, even if it names all
recipients (`forRecipient_of_view_iff`).
-/

namespace SealedTx.Payload

variable {p v : Payload} {r : PublicKey}

/-- The recipients that a view names. -/
def viewKeys (p : Payload) (r : PublicKey) : List PublicKey :=
  if p.mode = .privateStateValidation then r :: p.recipients.filter (· ≠ r) else [r]

/-- **A view is made of the box at the first place of its recipient.** -/
theorem forRecipient_eq_ok_iff :
    p.forRecipient r = .ok v ↔ ∃ i box, p.recipientIndex? r = some i ∧
      p.boxes[i]? = some box ∧ v = p.withView (p.viewKeys r) [box] := by
  unfold forRecipient
  constructor
  · intro h
    split at h
    · exact nomatch h
    next i hi =>
      split at h
      · exact nomatch h
      next box hbox =>
        cases h
        exact ⟨i, box, hi, hbox, rfl⟩
  · rintro ⟨i, box, hi, hbox, rfl⟩
    simp only [hi, hbox]
    rfl

/-- The first place of a recipient is one of its places. -/
theorem getElem?_of_recipientIndex? {i : Nat} (h : p.recipientIndex? r = some i) :
    p.recipients[i]? = some r := by
  obtain ⟨hi, hr, _⟩ := List.idxOf?_eq_some_iff.1 h
  rw [List.getElem?_eq_getElem hi, hr]

/-- There is a view for every recipient if there is a box for every recipient. -/
theorem exists_forRecipient (hr : r ∈ p.recipients)
    (hlength : p.boxes.length = p.recipients.length) : ∃ v, p.forRecipient r = .ok v := by
  obtain ⟨i, hi⟩ := Option.isSome_iff_exists.1 (List.isSome_idxOf?.2 hr)
  have hplace : i < p.boxes.length := by
    rw [hlength]
    exact (List.idxOf?_eq_some_iff.1 hi).1
  exact ⟨_, forRecipient_eq_ok_iff.2
    ⟨i, _, hi, List.getElem?_eq_getElem hplace, rfl⟩⟩

/-- A view names its own recipient first. -/
theorem head?_viewKeys (p : Payload) (r : PublicKey) : (p.viewKeys r).head? = some r := by
  unfold viewKeys
  split <;> rfl

theorem viewKeys_subset (hr : r ∈ p.recipients) : p.viewKeys r ⊆ p.recipients := by
  unfold viewKeys
  split
  · exact List.cons_subset.2 ⟨hr, fun k hk => (List.mem_filter.1 hk).1⟩
  · exact List.cons_subset.2 ⟨hr, List.nil_subset _⟩

theorem length_viewKeys_le (hr : r ∈ p.recipients) :
    (p.viewKeys r).length ≤ p.recipients.length := by
  have hpos : 0 < p.recipients.length := List.length_pos_of_mem hr
  unfold viewKeys
  split
  -- the recipient goes to the front and its places among the others go
  · have hlt : (p.recipients.filter (· ≠ r)).length < p.recipients.length :=
      List.length_filter_lt_length_iff_exists.2 ⟨r, hr, by simp⟩
    exact hlt
  · exact hpos

theorem recipients_ne_nil_of_forRecipient (hv : p.forRecipient r = .ok v) : v.recipients ≠ [] := by
  obtain ⟨_, _, _, _, rfl⟩ := forRecipient_eq_ok_iff.1 hv
  intro hnil
  have hhead := head?_viewKeys p r
  rw [show p.viewKeys r = [] from hnil] at hhead
  cases hhead

theorem viewKeys_withView (p : Payload) (r : PublicKey) (boxes : List RecipientBox) :
    (p.withView (p.viewKeys r) boxes).viewKeys r = p.viewKeys r := by
  unfold viewKeys withView
  by_cases hmode : p.mode = .privateStateValidation <;> simp [hmode]

/-- **The only view of a view is the view itself.** -/
theorem forRecipient_of_view_iff {r' : PublicKey} {w : Payload} (hv : p.forRecipient r = .ok v) :
    v.forRecipient r' = .ok w ↔ r' = r ∧ w = v := by
  obtain ⟨_, box, _, _, rfl⟩ := forRecipient_eq_ok_iff.1 hv
  have hfirst : (p.viewKeys r)[0]? = some r := by
    rw [← List.head?_eq_getElem?, head?_viewKeys]
  constructor
  · intro hw
    obtain ⟨i, box', hi, hbox', rfl⟩ := forRecipient_eq_ok_iff.1 hw
    cases i with
    | succ i => cases hbox'
    | zero =>
      have hr' : (p.viewKeys r)[0]? = some r' := getElem?_of_recipientIndex? hi
      rw [hfirst] at hr'
      cases hr'
      cases hbox'
      rw [viewKeys_withView]
      exact ⟨rfl, rfl⟩
  · rintro ⟨rfl, rfl⟩
    refine forRecipient_eq_ok_iff.2 ⟨0, box, ?_, rfl, ?_⟩
    · obtain ⟨hlength, hget⟩ := List.getElem?_eq_some_iff.1 hfirst
      exact List.idxOf?_eq_some_iff.2 ⟨hlength, hget, nofun⟩
    · rw [viewKeys_withView]
      rfl

/-- A view of a payload with lengths that can be written is one itself. -/
theorem sized_of_forRecipient (h : p.Sized) (hv : p.forRecipient r = .ok v) : v.Sized := by
  obtain ⟨i, box, hi, hbox, rfl⟩ := forRecipient_eq_ok_iff.1 hv
  have hr : r ∈ p.recipients := List.mem_of_getElem? (getElem?_of_recipientIndex? hi)
  have hmem : box ∈ p.boxes := List.mem_of_getElem? hbox
  exact { h with
    boxes := Nat.lt_of_le_of_lt (List.length_pos_of_mem hmem) h.boxes
    box := fun b hb => List.mem_singleton.1 hb ▸ h.box box hmem
    recipients := Nat.lt_of_le_of_lt (length_viewKeys_le hr) h.recipients }

end SealedTx.Payload
