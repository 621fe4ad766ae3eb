import Mathlib.Data.Finset.Basic
import LinuxNet.Lib.Machine

/-!
# Ledgers

The history of resources that are opened and closed again, with names that are reused.
A ledger balances if every name is opened only while it is not held and closed only
while it is; the balance is the set of the names that are held at the end.
-/

namespace LinuxNet.Lib.Ledger

variable {κ : Type*} [DecidableEq κ]

inductive Entry (κ : Type*) where
  | opened (k : κ)
  | closed (k : κ)
  deriving DecidableEq, Repr

def post (held : Finset κ) : Entry κ → Option (Finset κ)
  | .opened k => if k ∈ held then none else some (insert k held)
  | .closed k => if k ∈ held then some (held.erase k) else none

/-- The names that are held at the end; `none` if one is opened or closed twice. -/
def balance (log : List (Entry κ)) : Option (Finset κ) := Machine.run post ∅ log

variable {log : List (Entry κ)} {held : Finset κ} {k : κ}

theorem balance_append_singleton (h : balance log = some held) (e : Entry κ) :
    balance (log ++ [e]) = post held e := by
  have hpost : Machine.run post held [e] = post held e := Machine.run_singleton post held e
  rw [← hpost]
  ext t
  rw [balance, Machine.run_append_iff]
  constructor
  · rintro ⟨m, hm, ht⟩
    rw [← balance, h, Option.some.injEq] at hm
    exact hm ▸ ht
  · exact fun ht => ⟨held, h, ht⟩

theorem balance_opened (h : balance log = some held) (hk : k ∉ held) :
    balance (log ++ [.opened k]) = some (insert k held) := by
  rw [balance_append_singleton h, post, if_neg hk]

theorem balance_closed (h : balance log = some held) (hk : k ∈ held) :
    balance (log ++ [.closed k]) = some (held.erase k) := by
  rw [balance_append_singleton h, post, if_pos hk]

end LinuxNet.Lib.Ledger
