/-
The authentication of a client (the enumeration `AUTHED`).
-/
import Mathlib.Tactic.NormNum
import DDNet.Shared.Console

namespace DDNet

/-- `AUTHED_NO`, `AUTHED_HELPER`, `AUTHED_MOD` and `AUTHED_ADMIN`. -/
inductive Authed
  | no
  | helper
  | mod
  | admin
deriving DecidableEq

namespace Authed

/-- The number of the constant. -/
def toInt : Authed → ℤ
  | no => 0
  | helper => 1
  | mod => 2
  | admin => 3

/-- `AUTHED_ADMIN - Authed`, the access level of a client. -/
def accessLevel (authed : Authed) : ℤ := admin.toInt - authed.toInt

end Authed

/-- The level of a key, with which a client is authenticated. -/
inductive AuthLevel
  | helper
  | mod
  | admin
deriving DecidableEq

/-- The authentication with a key of this level. -/
def AuthLevel.authed : AuthLevel → Authed
  | helper => .helper
  | mod => .mod
  | admin => .admin

lemma AuthLevel.authed_ne_no (level : AuthLevel) : level.authed ≠ .no := by
  cases level <;> exact Authed.noConfusion

/-- `MAX_CLIENTS`. -/
def maxClients : ℕ := 64

instance : NeZero maxClients := ⟨by norm_num [maxClients]⟩

/-- A client id. -/
abbrev ClientId := Fin maxClients

end DDNet
