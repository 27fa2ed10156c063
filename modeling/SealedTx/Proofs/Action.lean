import SealedTx.Enclave
import SealedTx.Proofs.Outcome

/-!
# What steps come to

A step may draw, seal and fail. Sealing writes to the ledger but nothing reads from it what was
sealed, so once all draws are made what the remaining steps come to is the same for every ledger
(`Action.Gives`), and they can be read as steps that only fail or go on. Drawing alone looks at the
ledger, for the number of draws so far.
-/

namespace SealedTx.Action

variable {α β : Type}

/-- What a step comes to, from a ledger on. -/
def result (a : Action α) (l : Ledger) : Except EnclaveError α :=
  match a.run l with
  | .ok v _ => .ok v
  | .error e _ => .error e

/-- Whether a step comes to the same from every ledger on. -/
def Gives (a : Action α) (x : Except EnclaveError α) : Prop := ∀ l, a.result l = x

theorem gives_pure (a : α) : Gives (pure a) (pure a) := fun _ => rfl

theorem gives_ofExcept (x : Except EnclaveError α) : (ofExcept x).Gives x := by
  intro l
  cases x with
  | ok a => rfl
  | error e => rfl

/-- Steps one after the other come to what they do as steps that only fail or go on. -/
theorem Gives.bind {a : Action α} {x : Except EnclaveError α} {f : α → Action β}
    {g : α → Except EnclaveError β} (ha : a.Gives x)
    (hf : ∀ v, x = .ok v → (f v).Gives (g v)) : Gives (a >>= f) (x >>= g) := by
  intro l
  have hl := ha l
  unfold result at hl ⊢
  rw [EStateM.run_bind]
  cases hrun : a.run l with
  | error e l' =>
    rw [hrun] at hl
    rw [← hl]
    rfl
  | ok v l' =>
    rw [hrun] at hl
    rw [← hl]
    exact hf v hl.symm l'

theorem gives_mapM {f : α → Action β} {g : α → Except EnclaveError β}
    (hf : ∀ a, (f a).Gives (g a)) : ∀ l : List α, Gives (l.mapM f) (l.mapM g)
  | [] => gives_pure []
  | a :: l => by
    rw [List.mapM_cons, List.mapM_cons]
    exact (hf a).bind fun b _ => (gives_mapM hf l).bind fun bs _ => gives_pure (b :: bs)

end SealedTx.Action
