import Mathlib.Data.Nat.Notation
import Mathlib.Logic.Function.Basic

/-!
# The daemons at an address

Any number of daemons, each with its own place in what it does. A step moves one of them.
-/

namespace MehoyRuntime.Transport

structure Daemons (δ : Type) where
  daemons : ℕ → δ

namespace Daemons
variable {δ : Type} {d e : ℕ}

def set (site : Daemons δ) (d : ℕ) (daemon : δ) : Daemons δ :=
  ⟨Function.update site.daemons d daemon⟩

theorem daemons_set (site : Daemons δ) (d : ℕ) (daemon : δ) (e : ℕ) :
    (site.set d daemon).daemons e = if e = d then daemon else site.daemons e :=
  Function.update_apply site.daemons d daemon e

theorem daemons_set_self (site : Daemons δ) (d : ℕ) (daemon : δ) :
    (site.set d daemon).daemons d = daemon := by
  rw [daemons_set, if_pos rfl]

theorem daemons_set_ne {site : Daemons δ} {daemon : δ} (hne : e ≠ d) :
    (site.set d daemon).daemons e = site.daemons e := by
  rw [daemons_set, if_neg hne]

end Daemons
end MehoyRuntime.Transport
