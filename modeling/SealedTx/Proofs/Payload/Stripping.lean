import Mathlib.Data.List.Nodup
import SealedTx.Proofs.Payload.View

/-!
# Cutting a payload down

A payload that is sent to one recipient is cut down to what that recipient gets to see. What comes
off the wire may name a recipient more than once, and have more recipients than boxes or fewer. It
is the first place of the recipient that counts: there is a view exactly if there is a box at that
place, and the view has that box alone (`forRecipient_exact`).

Under private state validation the other recipients stay. They are told here by what is so of them
and not by how they are found: they stand in the order that they had, as often as they did, and the
recipient is not among them (`WithoutKey`). There is only one such list (`WithoutKey.eq_filter`), so
the view is told in full.
-/

namespace SealedTx.Payload

variable {p q : Payload} {r : PublicKey} {keys others : List PublicKey} {i : Nat}

/-! ## The first place of a key -/

/-- Whether a key stands at a place of a list and at no place before it. -/
def FirstAt (r : PublicKey) (i : Nat) (keys : List PublicKey) : Prop :=
  ∃ before behind, keys = before ++ r :: behind ∧ before.length = i ∧ r ∉ before

theorem FirstAt.mem (h : FirstAt r i keys) : r ∈ keys := by
  obtain ⟨before, behind, rfl, _, _⟩ := h
  simp

theorem exists_firstAt_iff : (∃ i, FirstAt r i keys) ↔ r ∈ keys := by
  constructor
  · rintro ⟨i, hi⟩
    exact hi.mem
  · intro h
    obtain ⟨before, behind, hkeys, hbefore⟩ := List.eq_append_cons_of_mem h
    exact ⟨before.length, before, behind, hkeys, rfl, hbefore⟩

theorem FirstAt.recipientIndex?_eq (h : FirstAt r i p.recipients) :
    p.recipientIndex? r = some i := by
  obtain ⟨before, behind, hkeys, rfl, hbefore⟩ := h
  unfold recipientIndex?
  refine List.idxOf?_eq_some_iff.2 ⟨by simp [hkeys], by simp [hkeys], fun j hj hget => ?_⟩
  refine hbefore (List.mem_iff_getElem.2 ⟨j, hj, ?_⟩)
  simpa [hkeys, List.getElem_append_left hj] using hget

theorem recipientIndex?_eq_some_iff :
    p.recipientIndex? r = some i ↔ FirstAt r i p.recipients := by
  constructor
  · intro h
    have hr : r ∈ p.recipients := List.isSome_idxOf?.1 (Option.isSome_of_eq_some h)
    obtain ⟨j, hj⟩ := exists_firstAt_iff.2 hr
    obtain rfl : i = j := Option.some.inj (h.symm.trans hj.recipientIndex?_eq)
    exact hj
  · exact FirstAt.recipientIndex?_eq

theorem recipientIndex?_eq_none_iff : p.recipientIndex? r = none ↔ r ∉ p.recipients :=
  List.idxOf?_eq_none_iff

/-! ## The other keys -/

/-- Whether a list holds all keys of another one but `r`, in the same order and as often. -/
structure WithoutKey (r : PublicKey) (keys others : List PublicKey) : Prop where
  sublist : others.Sublist keys
  not_mem : r ∉ others
  count_eq : ∀ k, k ≠ r → others.count k = keys.count k

theorem withoutKey_filter (r : PublicKey) (keys : List PublicKey) :
    WithoutKey r keys (keys.filter (· ≠ r)) := by
  constructor
  case sublist => exact List.filter_sublist
  case not_mem => simp
  case count_eq =>
    intro k hk
    exact List.count_filter (by simpa using hk)

/-- There is only one list of the other keys. -/
theorem WithoutKey.eq_filter (h : WithoutKey r keys others) : others = keys.filter (· ≠ r) := by
  have hfilter := withoutKey_filter r keys
  have hperm : others.Perm (keys.filter (· ≠ r)) := by
    refine List.perm_iff_count.2 fun k => ?_
    by_cases hk : k = r
    · rw [hk, List.count_eq_zero.2 h.not_mem, List.count_eq_zero.2 hfilter.not_mem]
    · rw [h.count_eq k hk, hfilter.count_eq k hk]
  have hsublist : others.Sublist (keys.filter (· ≠ r)) := by
    have hothers : others.filter (· ≠ r) = others := by
      refine List.filter_eq_self.2 fun k hk => ?_
      have hne : k ≠ r := fun e => h.not_mem (e ▸ hk)
      simpa using hne
    rw [← hothers]
    exact h.sublist.filter _
  exact hsublist.eq_of_length hperm.length_eq

/-- A key in front of the others is all of the keys, if none of them comes twice. -/
theorem WithoutKey.perm (h : WithoutKey r keys others) (hr : r ∈ keys) (hkeys : keys.Nodup) :
    (r :: others).Perm keys := by
  refine List.perm_iff_count.2 fun k => ?_
  by_cases hk : k = r
  · rw [hk, List.count_cons_self, List.count_eq_zero.2 h.not_mem,
      List.count_eq_one_of_mem hkeys hr]
  · rw [List.count_cons_of_ne (Ne.symm hk), h.count_eq k hk]

/-! ## The view -/

/-- Whether a payload is another one cut down to a recipient: of its boxes there is the one at the
first place of the recipient, of its recipients that one, or all with that one in front if they
validate the state, and every other part is as it was. -/
structure CutTo (p : Payload) (r : PublicKey) (q : Payload) : Prop where
  boxes : ∃ i box, FirstAt r i p.recipients ∧ p.boxes[i]? = some box ∧ q.boxes = [box]
  recipients : p.mode ≠ .privateStateValidation → q.recipients = [r]
  recipients_of_validating : p.mode = .privateStateValidation →
    ∃ others, q.recipients = r :: others ∧ WithoutKey r p.recipients others
  sender : q.sender = p.sender
  contents : q.toContents = { p.toContents with boxes := q.boxes, recipients := q.recipients }

theorem cutTo_withView {box : RecipientBox} (hi : FirstAt r i p.recipients)
    (hbox : p.boxes[i]? = some box) : p.CutTo r (p.withView (p.viewKeys r) [box]) := by
  constructor
  case boxes => exact ⟨i, box, hi, hbox, rfl⟩
  case recipients =>
    intro hmode
    exact if_neg hmode
  case recipients_of_validating =>
    intro hmode
    exact ⟨_, if_pos hmode, withoutKey_filter r p.recipients⟩
  case sender => rfl
  case contents => rfl

/-- The recipients that are left are those that a view names. -/
theorem CutTo.recipients_eq (h : p.CutTo r q) : q.recipients = p.viewKeys r := by
  unfold viewKeys
  split
  next hmode =>
    obtain ⟨others, hq, hothers⟩ := h.recipients_of_validating hmode
    rw [hq, hothers.eq_filter]
  next hmode => exact h.recipients hmode

/-- **A view is the payload cut down to its recipient.** -/
theorem forRecipient_eq_ok_iff_cutTo : p.forRecipient r = .ok q ↔ p.CutTo r q := by
  rw [forRecipient_eq_ok_iff]
  constructor
  · rintro ⟨i, box, hi, hbox, rfl⟩
    exact cutTo_withView (recipientIndex?_eq_some_iff.1 hi) hbox
  · intro h
    obtain ⟨i, box, hi, hbox, hboxes⟩ := h.boxes
    refine ⟨i, box, recipientIndex?_eq_some_iff.2 hi, hbox, ext_of_parts h.sender ?_⟩
    rw [h.contents, hboxes, h.recipients_eq]
    rfl

theorem CutTo.perm_recipients (h : p.CutTo r q) (hmode : p.mode = .privateStateValidation)
    (hkeys : p.recipients.Nodup) : q.recipients.Perm p.recipients := by
  obtain ⟨i, box, hi, _, _⟩ := h.boxes
  obtain ⟨others, hq, hothers⟩ := h.recipients_of_validating hmode
  rw [hq]
  exact hothers.perm hi.mem hkeys

/-! ## Whether there is a view -/

/-- A key that is no recipient has no view. -/
theorem forRecipient_of_not_mem (h : r ∉ p.recipients) :
    p.forRecipient r = .error (.invalidRecipient r) := by
  rw [forRecipient, recipientIndex?_eq_none_iff.2 h]

/-- A recipient whose first place has no box has no view. -/
theorem malformed_of_firstAt (hi : FirstAt r i p.recipients) (hge : p.boxes.length ≤ i) :
    ∃ reason, p.forRecipient r = .error (.malformedPayload reason) := by
  simp only [forRecipient, hi.recipientIndex?_eq, List.getElem?_eq_none hge]
  exact ⟨_, rfl⟩

/-- **Cutting a payload down is exact**, whatever recipients and boxes it has. There is no view for
a key that is no recipient, nor for a recipient without a box at its first place, each with an error
of its own. Else the view is the payload cut down to the recipient; under private state validation
it names all recipients, if none is named twice. The view of the view is the view. -/
theorem forRecipient_exact (p : Payload) (r : PublicKey) :
    (p.forRecipient r = .error (.invalidRecipient r) ↔ r ∉ p.recipients) ∧
    ((∃ reason, p.forRecipient r = .error (.malformedPayload reason)) ↔
      ∃ i, FirstAt r i p.recipients ∧ p.boxes.length ≤ i) ∧
    ((∃ q, p.forRecipient r = .ok q) ↔ ∃ i, FirstAt r i p.recipients ∧ i < p.boxes.length) ∧
    ∀ q, (p.forRecipient r = .ok q ↔ p.CutTo r q) ∧
      (p.forRecipient r = .ok q → q.forRecipient r = .ok q ∧
        (p.mode = .privateStateValidation → p.recipients.Nodup →
          q.recipients.Perm p.recipients)) := by
  have hview : (∃ q, p.forRecipient r = .ok q) ↔
      ∃ i, FirstAt r i p.recipients ∧ i < p.boxes.length := by
    constructor
    · rintro ⟨q, hq⟩
      obtain ⟨i, box, hi, hbox, _⟩ := (forRecipient_eq_ok_iff_cutTo.1 hq).boxes
      exact ⟨i, hi, (List.getElem?_eq_some_iff.1 hbox).1⟩
    · rintro ⟨i, hi, hlt⟩
      exact ⟨_, forRecipient_eq_ok_iff_cutTo.2 (cutTo_withView hi (List.getElem?_eq_getElem hlt))⟩
  refine ⟨⟨fun h hr => ?_, forRecipient_of_not_mem⟩, ⟨?_, ?_⟩, hview, fun q => ?_⟩
  · -- a recipient has a view, or is refused for its box
    obtain ⟨i, hi⟩ := exists_firstAt_iff.2 hr
    rcases Nat.lt_or_ge i p.boxes.length with hlt | hge
    · obtain ⟨q, hq⟩ := hview.2 ⟨i, hi, hlt⟩
      rw [hq] at h
      cases h
    · obtain ⟨reason, hreason⟩ := malformed_of_firstAt hi hge
      rw [hreason] at h
      cases h
  · rintro ⟨reason, h⟩
    by_cases hr : r ∈ p.recipients
    · obtain ⟨i, hi⟩ := exists_firstAt_iff.2 hr
      refine ⟨i, hi, Nat.le_of_not_lt fun hlt => ?_⟩
      obtain ⟨q, hq⟩ := hview.2 ⟨i, hi, hlt⟩
      rw [hq] at h
      cases h
    · rw [forRecipient_of_not_mem hr] at h
      cases h
  · rintro ⟨i, hi, hge⟩
    exact malformed_of_firstAt hi hge
  · refine ⟨forRecipient_eq_ok_iff_cutTo, fun hq => ⟨?_, fun hmode hkeys => ?_⟩⟩
    · exact (forRecipient_of_view_iff hq).2 ⟨rfl, rfl⟩
    · exact (forRecipient_eq_ok_iff_cutTo.1 hq).perm_recipients hmode hkeys

end SealedTx.Payload
