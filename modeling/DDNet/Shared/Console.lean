/-
The commands of the console (`CConsole`, `engine/shared/console.cpp`): how they are found, and
their access levels.
-/
import DDNet.Base.Str

namespace DDNet

/-- `CFGFLAG_SERVER`. -/
def cfgflagServer : ℕ := 4

/-- `ACCESS_LEVEL_ADMIN`. -/
def accessLevelAdmin : ℤ := 0

/-- `ACCESS_LEVEL_MOD`. -/
def accessLevelMod : ℤ := 1

/-- `ACCESS_LEVEL_HELPER`. -/
def accessLevelHelper : ℤ := 2

/-- `ACCESS_LEVEL_USER`. -/
def accessLevelUser : ℤ := 3

/-- `clamp` (`base/math.h`). -/
def clamp (value lower upper : ℤ) : ℤ :=
  if value < lower then lower else if upper < value then upper else value

/-- `CConsole::CCommand`; the callback is named by the command. -/
structure CCommand where
  name : List UInt8
  params : List UInt8
  help : List UInt8
  flags : ℕ
  accessLevel : ℤ
deriving DecidableEq

namespace CCommand

/-- The command has one of the flags. -/
def hasFlag (command : CCommand) (flagMask : ℕ) : Bool := command.flags &&& flagMask != 0

/-- What `FirstCommandInfo` and `NextCommandInfo` look for. -/
def isInfo (accessLevel : ℤ) (flagMask : ℕ) (command : CCommand) : Bool :=
  command.hasFlag flagMask && command.accessLevel ≥ accessLevel

/-- `SetAccessLevel`. -/
def setAccessLevel (command : CCommand) (accessLevel : ℤ) : CCommand :=
  { command with accessLevel := clamp accessLevel accessLevelAdmin accessLevelUser }

end CCommand

/-- The commands of the server are in the order of their names. -/
def ServerSorted (cmds : List CCommand) : Prop :=
  cmds.Pairwise fun a b =>
    a.hasFlag cfgflagServer = true → b.hasFlag cfgflagServer = true → strComp a.name b.name = .lt

/-- The list of the commands.  `AddCommandSorted` keeps it in the order of the names, `Register` adds
no command with a flag and a name that are there, and `SetAccessLevel` sets no other levels. -/
structure CommandList where
  cmds : List CCommand
  sorted : ServerSorted cmds
  levels : ∀ command ∈ cmds,
    accessLevelAdmin ≤ command.accessLevel ∧ command.accessLevel ≤ accessLevelUser

/-- The first command from the index `i` on that satisfies `p`. -/
def findFrom (cmds : List CCommand) (p : CCommand → Bool) (i : ℕ) : Option ℕ :=
  ((cmds.drop i).findIdx? p).map (i + ·)

namespace CommandList

/-- `FindCommand`, which `GetCommandInfo` agrees with where no command is temporary. -/
def findCommand (console : CommandList) (name : List UInt8) (flagMask : ℕ) : Option ℕ :=
  findFrom console.cmds (fun command => command.hasFlag flagMask && strCompNocase command.name name == .eq) 0

/-- `FirstCommandInfo`. -/
def firstCommandInfo (console : CommandList) (accessLevel : ℤ) (flagMask : ℕ) : Option ℕ :=
  findFrom console.cmds (CCommand.isInfo accessLevel flagMask) 0

/-- `NextCommandInfo`. -/
def nextCommandInfo (console : CommandList) (info : ℕ) (accessLevel : ℤ) (flagMask : ℕ) : Option ℕ :=
  findFrom console.cmds (CCommand.isInfo accessLevel flagMask) (info + 1)

lemma serverSorted_modify {cmds : List CCommand} (h : ServerSorted cmds) (i : ℕ) (accessLevel : ℤ) :
    ServerSorted (cmds.modify i (·.setAccessLevel accessLevel)) := by
  rw [ServerSorted, List.pairwise_iff_getElem] at h ⊢
  intro j k hj hk hjk
  rw [List.length_modify] at hj hk
  have hpair := h j k hj hk hjk
  rw [List.getElem_modify, List.getElem_modify]
  split_ifs <;> exact hpair

lemma setAccessLevel_bounds (command : CCommand) (accessLevel : ℤ) :
    accessLevelAdmin ≤ (command.setAccessLevel accessLevel).accessLevel ∧
      (command.setAccessLevel accessLevel).accessLevel ≤ accessLevelUser := by
  show accessLevelAdmin ≤ clamp _ _ _ ∧ clamp _ _ _ ≤ accessLevelUser
  rw [clamp, accessLevelAdmin, accessLevelUser]
  split_ifs <;> omega

/-- `ConCommandAccess` with two arguments, for the command that is found. -/
def setAccessLevel (console : CommandList) (info : ℕ) (accessLevel : ℤ) : CommandList where
  cmds := console.cmds.modify info (·.setAccessLevel accessLevel)
  sorted := serverSorted_modify console.sorted info accessLevel
  levels command hcommand := by
    obtain ⟨i, hi⟩ := List.mem_iff_getElem?.1 hcommand
    rw [List.getElem?_modify, Option.map_eq_map, Option.map_eq_some_iff] at hi
    obtain ⟨old, hold, hmodify⟩ := hi
    split_ifs at hmodify
    · exact hmodify ▸ setAccessLevel_bounds old accessLevel
    · exact hmodify ▸ console.levels old (List.mem_of_getElem? hold)

end CommandList

/-! ### The search for a command -/

lemma findFrom_some {cmds : List CCommand} {p : CCommand → Bool} {i j : ℕ}
    (h : findFrom cmds p i = some j) : i ≤ j ∧ (∃ command, cmds[j]? = some command ∧ p command = true) ∧
      ∀ k command, i ≤ k → k < j → cmds[k]? = some command → p command = false := by
  obtain ⟨n, hn, rfl⟩ := Option.map_eq_some_iff.1 h
  obtain ⟨hlt, hp, hbefore⟩ := List.findIdx?_eq_some_iff_getElem.1 hn
  have hlen : i + n < cmds.length := by
    rw [List.length_drop] at hlt
    omega
  rw [List.getElem_drop] at hp
  refine ⟨Nat.le_add_right _ _, ⟨_, List.getElem?_eq_getElem hlen, hp⟩, fun k command hik hkj hk => ?_⟩
  obtain ⟨hk', rfl⟩ := List.getElem?_eq_some_iff.1 hk
  have hnone := hbefore (k - i) (by omega)
  rw [List.getElem_drop] at hnone
  simpa [Nat.add_sub_cancel' hik] using hnone

lemma findFrom_none {cmds : List CCommand} {p : CCommand → Bool} {i : ℕ} (h : findFrom cmds p i = none) :
    ∀ k command, i ≤ k → cmds[k]? = some command → p command = false := by
  intro k command hik hk
  rw [findFrom, Option.map_eq_none_iff, List.findIdx?_eq_none_iff] at h
  refine h command (List.mem_iff_getElem?.2 ⟨k - i, ?_⟩)
  rw [List.getElem?_drop, Nat.add_sub_cancel' hik]
  exact hk

end DDNet
