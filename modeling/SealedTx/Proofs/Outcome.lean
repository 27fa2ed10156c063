import Mathlib.Data.List.Forall2

/-!
# Steps that may fail

A sequence of steps succeeds exactly if every step does (`bind_eq_ok_iff`), and a step for each
item of a list exactly if the steps for the items are the results, one by one (`mapM_eq_ok_iff`).
So does a step that chooses from a list, and it takes the items that are chosen
(`filterM_eq_ok_iff`).

The error is that of the first step that fails (`mapM_eq_error_iff`). If each step has only errors
of some kind, so have all of them together (`FailsOnly`).
-/

namespace SealedTx.Outcome

variable {ε α β : Type}

@[simp] theorem ok_bind (a : α) (f : α → Except ε β) : Except.ok a >>= f = f a := rfl

@[simp] theorem error_bind (e : ε) (f : α → Except ε β) : Except.error e >>= f = .error e := rfl

theorem bind_eq_ok_iff {x : Except ε α} {f : α → Except ε β} {b : β} :
    x >>= f = .ok b ↔ ∃ a, x = .ok a ∧ f a = .ok b := by
  constructor
  · intro h
    cases x with
    | error e => exact nomatch h
    | ok a => exact ⟨a, rfl, h⟩
  · rintro ⟨a, rfl, hf⟩
    exact hf

theorem map_eq_ok_iff {x : Except ε α} {f : α → β} {b : β} :
    f <$> x = .ok b ↔ ∃ a, x = .ok a ∧ f a = b := by
  cases x with
  | error e => simp [Functor.map, Except.map]
  | ok a => simp [Functor.map, Except.map]

theorem toOption_eq_some_iff {x : Except ε α} {a : α} : x.toOption = some a ↔ x = .ok a := by
  cases x with
  | error e => simp [Except.toOption]
  | ok b => simp [Except.toOption]

theorem mapError_eq_ok_iff {ε' : Type} {x : Except ε α} {f : ε → ε'} {a : α} :
    x.mapError f = .ok a ↔ x = .ok a := by
  cases x with
  | error e =>
    constructor
    · intro h
      cases h
    · intro h
      cases h
  | ok b =>
    constructor
    · intro h
      cases h
      rfl
    · intro h
      cases h
      rfl

theorem mapError_eq_error_iff {ε' : Type} {x : Except ε α} {f : ε → ε'} {e' : ε'} :
    x.mapError f = .error e' ↔ ∃ e, x = .error e ∧ f e = e' := by
  cases x with
  | error e => simp [Except.mapError]
  | ok a => simp [Except.mapError]

/-- If all errors are of one kind, there is one of that kind exactly if there is no result. -/
theorem exists_error_iff {κ : Type} {kind : κ → ε} {x : Except ε α}
    (h : ∀ e, x = .error e → ∃ k, e = kind k) :
    (∃ k, x = .error (kind k)) ↔ ¬∃ a, x = .ok a := by
  cases x with
  | ok a => simp
  | error e =>
    obtain ⟨k, rfl⟩ := h e rfl
    refine iff_of_true ⟨k, rfl⟩ ?_
    rintro ⟨a, ha⟩
    cases ha

/-- **A step for each item of a list** succeeds with the results of the steps. -/
theorem mapM_eq_ok_iff {f : α → Except ε β} : ∀ {l : List α} {bs : List β},
    l.mapM f = .ok bs ↔ l.map f = bs.map .ok
  | [], bs => by
    rw [List.mapM_nil, List.map_nil]
    cases bs with
    | nil => exact ⟨fun _ => rfl, fun _ => rfl⟩
    | cons b bs =>
      constructor
      · intro h
        exact nomatch h
      · intro h
        exact nomatch h
  | a :: l, bs => by
    rw [List.mapM_cons, bind_eq_ok_iff]
    constructor
    · rintro ⟨b, hb, h⟩
      obtain ⟨rest, hrest, h⟩ := bind_eq_ok_iff.1 h
      cases h
      rw [List.map_cons, List.map_cons, hb, mapM_eq_ok_iff.1 hrest]
    · intro h
      cases bs with
      | nil => exact nomatch h
      | cons b bs =>
        obtain ⟨hb, hrest⟩ := List.cons.inj h
        exact ⟨b, hb, bind_eq_ok_iff.2 ⟨bs, mapM_eq_ok_iff.2 hrest, rfl⟩⟩

/-- Every result is that of the item at its place. -/
theorem exists_of_mapM_eq_ok {f : α → Except ε β} {l : List α} {bs : List β}
    (h : l.mapM f = .ok bs) {i : Nat} {b : β} (hb : bs[i]? = some b) :
    ∃ a, l[i]? = some a ∧ f a = .ok b := by
  have hi : (l.map f)[i]? = some (.ok b) := by
    rw [mapM_eq_ok_iff.1 h, List.getElem?_map, hb]
    rfl
  rw [List.getElem?_map] at hi
  exact Option.map_eq_some_iff.1 hi

theorem mem_iff_of_mapM_eq_ok {f : α → Except ε β} {l : List α} {bs : List β}
    (h : l.mapM f = .ok bs) {b : β} : b ∈ bs ↔ ∃ a ∈ l, f a = .ok b := by
  have hmem : (.ok b : Except ε β) ∈ bs.map .ok ↔ b ∈ bs := by simp
  rw [← hmem, ← mapM_eq_ok_iff.1 h, List.mem_map]

/-- What every step keeps of its item, the whole list keeps. -/
theorem map_eq_of_mapM_eq_ok {γ : Type} {f : α → Except ε β} {g : β → γ} {g' : α → γ}
    (hf : ∀ a b, f a = .ok b → g b = g' a) : ∀ {l : List α} {bs : List β},
    l.mapM f = .ok bs → bs.map g = l.map g'
  | [], bs, h => by
    cases h
    rfl
  | a :: l, bs, h => by
    rw [List.mapM_cons] at h
    obtain ⟨b, hb, h⟩ := bind_eq_ok_iff.1 h
    obtain ⟨rest, hrest, h⟩ := bind_eq_ok_iff.1 h
    cases h
    rw [List.map_cons, List.map_cons, hf a b hb, map_eq_of_mapM_eq_ok hf hrest]

theorem length_of_mapM_eq_ok {f : α → Except ε β} {l : List α} {bs : List β}
    (h : l.mapM f = .ok bs) : bs.length = l.length := by
  have hlength := congrArg List.length (mapM_eq_ok_iff.1 h)
  rw [List.length_map, List.length_map] at hlength
  exact hlength.symm

theorem exists_mapM_eq_ok {f : α → Except ε β} : ∀ {l : List α}, (∀ a ∈ l, ∃ b, f a = .ok b) →
    ∃ bs, l.mapM f = .ok bs
  | [], _ => ⟨[], rfl⟩
  | a :: l, h => by
    obtain ⟨b, hb⟩ := h a List.mem_cons_self
    obtain ⟨bs, hbs⟩ := exists_mapM_eq_ok fun x hx => h x (List.mem_cons_of_mem a hx)
    refine ⟨b :: bs, ?_⟩
    rw [List.mapM_cons, hb, hbs]
    rfl

theorem exists_mapM_eq_ok_iff {f : α → Except ε β} {l : List α} :
    (∃ bs, l.mapM f = .ok bs) ↔ ∀ a ∈ l, ∃ b, f a = .ok b := by
  refine ⟨?_, exists_mapM_eq_ok⟩
  rintro ⟨bs, h⟩ a ha
  have hmem : f a ∈ bs.map .ok := by
    rw [← mapM_eq_ok_iff.1 h]
    exact List.mem_map_of_mem ha
  obtain ⟨b, _, hb⟩ := List.mem_map.1 hmem
  exact ⟨b, hb.symm⟩

/-- Items that were written one by one are read back one by one. -/
theorem mapM_map_eq_ok {f : β → Except ε α} {g : α → β} (h : ∀ a, f (g a) = .ok a) (l : List α) :
    (l.map g).mapM f = .ok l := by
  rw [mapM_eq_ok_iff, List.map_map]
  exact List.map_congr_left fun a _ => h a

/-- Items that are read just off what is written for them are read so as a list too. -/
theorem mapM_eq_ok_iff_exists {γ : Type} {f : α → Except ε β} {g : γ → α} {k : γ → β}
    (h : ∀ a b, f a = .ok b ↔ ∃ c, g c = a ∧ k c = b) : ∀ {l : List α} {bs : List β},
    l.mapM f = .ok bs ↔ ∃ cs : List γ, cs.map g = l ∧ cs.map k = bs
  | [], bs => by
    constructor
    · intro hbs
      cases hbs
      exact ⟨[], rfl, rfl⟩
    · rintro ⟨cs, hl, rfl⟩
      rw [List.map_eq_nil_iff.1 hl]
      rfl
  | a :: l, bs => by
    rw [List.mapM_cons, bind_eq_ok_iff]
    constructor
    · rintro ⟨b, hb, hbs⟩
      obtain ⟨rest, hrest, hpure⟩ := bind_eq_ok_iff.1 hbs
      obtain ⟨c, rfl, rfl⟩ := (h a b).1 hb
      obtain ⟨cs, rfl, rfl⟩ := (mapM_eq_ok_iff_exists h).1 hrest
      cases hpure
      exact ⟨c :: cs, rfl, rfl⟩
    · rintro ⟨cs, hl, rfl⟩
      cases cs with
      | nil => cases hl
      | cons c cs =>
        obtain ⟨rfl, rfl⟩ := List.cons.inj hl
        refine ⟨k c, (h _ _).2 ⟨c, rfl, rfl⟩, bind_eq_ok_iff.2 ⟨cs.map k, ?_, rfl⟩⟩
        exact (mapM_eq_ok_iff_exists h).2 ⟨cs, rfl, rfl⟩

theorem mapM_eq_ok_iff_map {f : α → Except ε β} {g : β → α} (h : ∀ a b, f a = .ok b ↔ g b = a)
    {l : List α} {bs : List β} : l.mapM f = .ok bs ↔ bs.map g = l := by
  rw [mapM_eq_ok_iff_exists (g := g) (k := id) fun a b => by simp [h]]
  simp

/-! ## The first error -/

theorem bind_eq_error_iff {x : Except ε α} {f : α → Except ε β} {e : ε} :
    x >>= f = .error e ↔ x = .error e ∨ ∃ a, x = .ok a ∧ f a = .error e := by
  cases x with
  | error e' => simp
  | ok a => simp

/-- Whether a step fails for an item of a list, and succeeds for all items before it. -/
def FailsFirst (f : α → Except ε β) (l : List α) (e : ε) : Prop :=
  ∃ before a behind, l = before ++ a :: behind ∧ (∀ b ∈ before, ∃ v, f b = .ok v) ∧ f a = .error e

/-- **A step for each item of a list** fails as it does for the first item that it fails for. -/
theorem mapM_eq_error_iff {f : α → Except ε β} {e : ε} : ∀ {l : List α},
    l.mapM f = .error e ↔ FailsFirst f l e
  | [] => by
    constructor
    · intro h
      cases h
    · rintro ⟨before, a, behind, h, _⟩
      cases before <;> cases h
  | a :: l => by
    rw [List.mapM_cons, bind_eq_error_iff]
    constructor
    · rintro (ha | ⟨b, hb, h⟩)
      · exact ⟨[], a, l, rfl, by simp, ha⟩
      · rcases bind_eq_error_iff.1 h with h | ⟨_, _, h⟩
        · obtain ⟨before, c, behind, rfl, hbefore, hc⟩ := mapM_eq_error_iff.1 h
          exact ⟨a :: before, c, behind, rfl, List.forall_mem_cons.2 ⟨⟨b, hb⟩, hbefore⟩, hc⟩
        · cases h
    · rintro ⟨before, c, behind, hl, hbefore, hc⟩
      cases before with
      | nil =>
        obtain ⟨rfl, rfl⟩ := List.cons.inj hl
        exact .inl hc
      | cons a' before =>
        obtain ⟨rfl, rfl⟩ := List.cons.inj hl
        obtain ⟨⟨b, hb⟩, hbefore⟩ := List.forall_mem_cons.1 hbefore
        refine .inr ⟨b, hb, bind_eq_error_iff.2 (.inl ?_)⟩
        exact mapM_eq_error_iff.2 ⟨before, c, behind, rfl, hbefore, hc⟩

theorem exists_ok_iff {x : Except ε α} : (∃ a, x = .ok a) ↔ ∀ e, x ≠ .error e := by
  cases x with
  | error e => simp
  | ok a => simp

/-- Steps that fail alike fail first alike. -/
theorem failsFirst_congr {γ : Type} {f : α → Except ε β} {g : α → Except ε γ}
    (h : ∀ a e, f a = .error e ↔ g a = .error e) {l : List α} {e : ε} :
    FailsFirst f l e ↔ FailsFirst g l e := by
  have hok : ∀ a, (∃ v, f a = .ok v) ↔ ∃ v, g a = .ok v := by
    intro a
    rw [exists_ok_iff, exists_ok_iff]
    exact forall_congr' fun e => not_congr (h a e)
  simp only [FailsFirst, hok, h]

section FailsFirst

variable {γ δ : Type} {f : α → Except ε β} {step : γ → Except ε δ} {l l' : List α} {a : α} {e : ε}

theorem not_failsFirst_nil : ¬FailsFirst f [] e := by
  rw [← mapM_eq_error_iff, List.mapM_nil]
  exact nofun

theorem failsFirst_cons_iff : FailsFirst f (a :: l) e ↔
    f a = .error e ∨ (∃ v, f a = .ok v) ∧ FailsFirst f l e := by
  rw [← mapM_eq_error_iff, List.mapM_cons, bind_eq_error_iff]
  simp only [bind_eq_error_iff, mapM_eq_error_iff]
  simp [pure, Except.pure]

theorem failsFirst_append_iff : FailsFirst f (l ++ l') e ↔
    FailsFirst f l e ∨ (∀ a ∈ l, ∃ v, f a = .ok v) ∧ FailsFirst f l' e := by
  rw [← mapM_eq_error_iff, List.mapM_append, bind_eq_error_iff, mapM_eq_error_iff,
    ← exists_mapM_eq_ok_iff]
  simp only [bind_eq_error_iff, mapM_eq_error_iff]
  simp [pure, Except.pure]

/-- **A check of each item of a list** fails as it does for the first item that it fails for. -/
theorem forM_eq_error_iff {f : α → Except ε PUnit} : ∀ {l : List α},
    l.forM f = .error e ↔ FailsFirst f l e
  | [] => iff_of_false nofun not_failsFirst_nil
  | a :: l => by
    rw [failsFirst_cons_iff, ← forM_eq_error_iff]
    show f a >>= (fun _ => l.forM f) = .error e ↔ _
    rw [bind_eq_error_iff, exists_and_right]

theorem forall_not_failsFirst_iff :
    (∀ e, ¬FailsFirst f l e) ↔ ∀ a ∈ l, ∃ v, f a = .ok v := by
  rw [← exists_mapM_eq_ok_iff, exists_ok_iff]
  simp only [mapM_eq_error_iff, ne_eq]

/-- What fails as the steps for a list do succeeds if they all do. -/
theorem exists_ok_iff_of_failsFirst {x : Except ε δ} (h : ∀ e, x = .error e ↔ FailsFirst f l e) :
    (∃ v, x = .ok v) ↔ ∀ a ∈ l, ∃ v, f a = .ok v := by
  rw [exists_ok_iff, ← forall_not_failsFirst_iff]
  exact forall_congr' fun e => not_congr (h e)

/-- If each item stands for steps and fails as they do, the items fail as all of their steps do. -/
theorem failsFirst_flatMap_iff {g : α → List γ} : ∀ {l : List α},
    (∀ a ∈ l, ∀ e, f a = .error e ↔ FailsFirst step (g a) e) →
      (FailsFirst f l e ↔ FailsFirst step (l.flatMap g) e)
  | [], _ => iff_of_false not_failsFirst_nil not_failsFirst_nil
  | a :: l, h => by
    obtain ⟨ha, hl⟩ := List.forall_mem_cons.1 h
    rw [failsFirst_cons_iff, List.flatMap_cons, failsFirst_append_iff, ha,
      exists_ok_iff_of_failsFirst ha, failsFirst_flatMap_iff hl]

/-! ### Items and their places -/

/-- **A step for each item and its place** gives for each item what it is to give. -/
theorem mapM_zipIdx_eq_ok_iff {f : α × Nat → Except ε β} {R : α → β → Prop}
    (h : ∀ a i b, f (a, i) = .ok b ↔ R a b) : ∀ {l : List α} {i : Nat} {bs : List β},
    (l.zipIdx i).mapM f = .ok bs ↔ List.Forall₂ R l bs
  | [], i, bs => by
    rw [List.zipIdx_nil, List.mapM_nil, List.forall₂_nil_left_iff]
    exact ⟨fun hbs => (Except.ok.inj hbs).symm, fun hbs => congrArg Except.ok hbs.symm⟩
  | a :: l, i, bs => by
    rw [List.zipIdx_cons, List.mapM_cons, bind_eq_ok_iff, List.forall₂_cons_left_iff]
    simp only [bind_eq_ok_iff, mapM_zipIdx_eq_ok_iff h, h]
    constructor
    · rintro ⟨b, hb, rest, hrest, hbs⟩
      exact ⟨b, rest, hb, hrest, (Except.ok.inj hbs).symm⟩
    · rintro ⟨b, rest, hb, hrest, rfl⟩
      exact ⟨b, hb, rest, hrest, rfl⟩

/-- The place of the first item that fails is the number of items before it. -/
theorem failsFirst_zipIdx_iff {f : α × Nat → Except ε β} {i : Nat} :
    FailsFirst f (l.zipIdx i) e ↔ ∃ before a behind, l = before ++ a :: behind ∧
      (∀ x ∈ before.zipIdx i, ∃ v, f x = .ok v) ∧ f (a, i + before.length) = .error e := by
  constructor
  · rintro ⟨before, x, behind, hl, hbefore, hx⟩
    obtain ⟨before, rest, rfl, rfl, hrest⟩ := List.zipIdx_eq_append_iff.1 hl
    obtain ⟨a, behind, rfl, rfl, _⟩ := List.zipIdx_eq_cons_iff.1 hrest.symm
    exact ⟨before, a, behind, rfl, hbefore, hx⟩
  · rintro ⟨before, a, behind, rfl, hbefore, ha⟩
    exact ⟨_, _, _, by rw [List.zipIdx_append, List.zipIdx_cons], hbefore, ha⟩

end FailsFirst

/-- Whether a step fails only with errors of some kind. -/
def FailsOnly (P : ε → Prop) (x : Except ε α) : Prop := ∀ e, x = .error e → P e

section FailsOnly

variable {P : ε → Prop} {x : Except ε α} {f : α → Except ε β}

theorem failsOnly_ok (a : α) : FailsOnly P (.ok a : Except ε α) := by
  intro e h
  cases h

theorem failsOnly_error {e : ε} (h : P e) : FailsOnly P (.error e : Except ε α) := by
  intro e' he
  cases he
  exact h

theorem FailsOnly.bind (hx : FailsOnly P x) (hf : ∀ a, FailsOnly P (f a)) :
    FailsOnly P (x >>= f) := by
  intro e h
  rcases bind_eq_error_iff.1 h with h | ⟨a, _, h⟩
  · exact hx e h
  · exact hf a e h

theorem failsOnly_mapM (hf : ∀ a, FailsOnly P (f a)) (l : List α) : FailsOnly P (l.mapM f) := by
  intro e h
  obtain ⟨_, a, _, _, _, ha⟩ := mapM_eq_error_iff.1 h
  exact hf a e ha

end FailsOnly

/-! ## Choosing from a list -/

theorem filterAuxM_eq_ok_iff {f : α → Except ε Bool} : ∀ {l chosen bs : List α},
    l.filterAuxM f chosen = .ok bs ↔ (∀ a ∈ l, ∃ b, f a = .ok b) ∧
      bs = (l.filter fun a => (f a).toOption == some true).reverse ++ chosen
  | [], chosen, bs => by
    constructor
    · intro h
      cases h
      exact ⟨by simp, rfl⟩
    · rintro ⟨_, rfl⟩
      rfl
  | a :: l, chosen, bs => by
    rw [List.filterAuxM, bind_eq_ok_iff, List.forall_mem_cons]
    constructor
    · rintro ⟨b, hb, h⟩
      obtain ⟨hl, rfl⟩ := filterAuxM_eq_ok_iff.1 h
      refine ⟨⟨⟨b, hb⟩, hl⟩, ?_⟩
      cases b <;> simp [hb, Except.toOption]
    · rintro ⟨⟨⟨b, hb⟩, hl⟩, rfl⟩
      refine ⟨b, hb, filterAuxM_eq_ok_iff.2 ⟨hl, ?_⟩⟩
      cases b <;> simp [hb, Except.toOption]

/-- **A choice from a list** succeeds if it does for every item, and takes those that it is for. -/
theorem filterM_eq_ok_iff {f : α → Except ε Bool} {l bs : List α} :
    l.filterM f = .ok bs ↔ (∀ a ∈ l, ∃ b, f a = .ok b) ∧
      bs = l.filter fun a => (f a).toOption == some true := by
  rw [List.filterM, bind_eq_ok_iff]
  constructor
  · rintro ⟨chosen, h, hbs⟩
    obtain ⟨hl, rfl⟩ := filterAuxM_eq_ok_iff.1 h
    cases hbs
    exact ⟨hl, by simp⟩
  · rintro ⟨hl, rfl⟩
    exact ⟨_, filterAuxM_eq_ok_iff.2 ⟨hl, rfl⟩, by simp [pure, Except.pure]⟩

theorem filterAuxM_congr {f g : α → Except ε Bool} : ∀ {l chosen : List α},
    (∀ a ∈ l, f a = g a) → l.filterAuxM f chosen = l.filterAuxM g chosen
  | [], _, _ => rfl
  | a :: l, chosen, h => by
    obtain ⟨ha, hl⟩ := List.forall_mem_cons.1 h
    rw [List.filterAuxM, List.filterAuxM, ha]
    exact bind_congr fun b => filterAuxM_congr hl

theorem filterM_congr {f g : α → Except ε Bool} {l : List α} (h : ∀ a ∈ l, f a = g a) :
    l.filterM f = l.filterM g := by
  rw [List.filterM, List.filterM, filterAuxM_congr h]

end SealedTx.Outcome
