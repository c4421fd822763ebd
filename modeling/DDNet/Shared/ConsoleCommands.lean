/-
The lists of commands of the console (`CConsole`, `engine/shared/console.cpp`): the commands in the order of their
names, and the temporary ones that are gone and whose memory is used again.
-/
import DDNet.Lib.SinglyLinked
import DDNet.Lib.StableInsert
import DDNet.Shared.ConsoleLine

namespace DDNet

open Lib

variable {C : Type}

/-! ### Commands in memory -/

/-- `CCommand` as it is registered.  The callback comes with its user data; a temporary command has none. -/
structure RegisteredCommand (C : Type) where
  command : CCommand
  temp : Bool
  callback : Option C
  /-- The memory is part of `m_TempCommands`. -/
  ofTempCommands : Bool

/-- `TEMPCMD_NAME_LENGTH`. -/
def tempcmdNameLength : ℕ := 64

/-- `TEMPCMD_HELP_LENGTH`. -/
def tempcmdHelpLength : ℕ := 192

/-- `TEMPCMD_PARAMS_LENGTH`. -/
def tempcmdParamsLength : ℕ := 96

namespace RegisteredCommand

/-- The name. -/
abbrev name (command : RegisteredCommand C) : List UInt8 := command.command.name

/-- A command of which nothing is set. -/
def blank (ofTempCommands : Bool) : RegisteredCommand C :=
  ⟨⟨[], [], [], 0, accessLevelAdmin⟩, false, none, ofTempCommands⟩

/-- What `Register` sets. -/
def setRegistered (old : RegisteredCommand C) (name params : List UInt8) (flags : ℕ) (callback : C)
    (help : List UInt8) : RegisteredCommand C :=
  let command : CCommand := ⟨name, params, help, flags, old.command.accessLevel⟩
  { old with
    command := if command.hasFlag cfgflagChat then command.setAccessLevel accessLevelUser else command
    temp := false
    callback := some callback }

lemma setRegistered_name (old : RegisteredCommand C) (name params : List UInt8) (flags : ℕ) (callback : C)
    (help : List UInt8) : (old.setRegistered name params flags callback help).name = name := by
  simp only [setRegistered, RegisteredCommand.name]
  split_ifs <;> rfl

/-- What `RegisterTemp` sets. -/
def setTemp (old : RegisteredCommand C) (name params : List UInt8) (flags : ℕ) (help : List UInt8) :
    RegisteredCommand C :=
  { old with
    command := ⟨strCopy tempcmdNameLength name, strCopy tempcmdParamsLength params, strCopy tempcmdHelpLength help,
      flags, old.command.accessLevel⟩
    temp := true
    callback := none }

/-- The command does not stand behind the other one. -/
def comesFirst (command next : RegisteredCommand C) : Bool := strComp command.name next.name ≠ .gt

/-- What `FindCommand` looks for. -/
def isFound (name : List UInt8) (flagMask : ℕ) (command : RegisteredCommand C) : Bool :=
  command.command.hasFlag flagMask && strCompNocase command.name name = .eq

/-- What `DeregisterTemp` looks for. -/
def isTempOf (name : List UInt8) (command : RegisteredCommand C) : Bool :=
  command.temp && strComp command.name name = .eq

end RegisteredCommand

/-! ### The lists -/

/-- The lists of `CConsole`: the memory, `m_pFirstCommand` and `m_pRecycleList`. -/
structure CommandMemory (C : Type) where
  memory : Memory ℕ (RegisteredCommand C)
  /-- The addresses from here on have not been used yet. -/
  size : ℕ
  firstCommand : Option ℕ
  recycleList : Option ℕ

namespace CommandMemory

/-- The lists are empty. -/
def init : CommandMemory C := ⟨fun _ => none, 0, none, none⟩

/-- A node is written. -/
@[simps] def write (console : CommandMemory C) (p : ℕ) (node : Node ℕ (RegisteredCommand C)) : CommandMemory C :=
  { console with memory := Function.update console.memory p (some node) }

/-- `new`, or `m_TempCommands.Allocate`. -/
@[simps] def allocate (console : CommandMemory C) (command : RegisteredCommand C) : CommandMemory C :=
  { console.write console.size ⟨command, none⟩ with size := console.size + 1 }

/-- `FindCommand`. -/
def findCommand (console : CommandMemory C) (name : List UInt8) (flagMask : ℕ) : Option (Option ℕ) :=
  findNode console.memory (RegisteredCommand.isFound name flagMask) console.size console.firstCommand

/-- `AddCommandSorted`. -/
def addCommandSorted (console : CommandMemory C) (command : ℕ) : Option (CommandMemory C) := do
  let node ← console.memory command
  match console.firstCommand with
  | none => some { console.write command { node with next := none } with firstCommand := some command }
  | some first =>
      let firstNode ← console.memory first
      if node.value.comesFirst firstNode.value then
        let next := if firstNode.next.isSome then some first else none
        some { console.write command { node with next := next } with firstCommand := some command }
      else
        let p ← findBefore console.memory (node.value.comesFirst ·) console.size first
        let pNode ← console.memory p
        some ((console.write command { node with next := pNode.next }).write p { pNode with next := some command })

/-- `Register`. -/
def register (console : CommandMemory C) (name params : List UInt8) (flags : ℕ) (callback : C)
    (help : List UInt8) : Option (CommandMemory C) := do
  match ← console.findCommand name flags with
  | some p =>
      let node ← console.memory p
      some (console.write p { node with value := node.value.setRegistered name params flags callback help })
  | none =>
      -- the access level does not matter for the order
      (console.allocate ((RegisteredCommand.blank false).setRegistered name params flags callback help)).addCommandSorted
        console.size

/-- `RegisterTemp`. -/
def registerTemp (console : CommandMemory C) (name params : List UInt8) (flags : ℕ) (help : List UInt8) :
    Option (CommandMemory C) := do
  match console.recycleList with
  | some p =>
      let node ← console.memory p
      let console := console.write p { node with value := node.value.setTemp name params flags help }
      ({ console with recycleList := node.next }).addCommandSorted p
  | none =>
      (console.allocate ((RegisteredCommand.blank true).setTemp name params flags help)).addCommandSorted console.size

/-- A command is added to the recycle list. -/
def recycle (console : CommandMemory C) (removed : ℕ) : Option (CommandMemory C) := do
  let node ← console.memory removed
  some { console.write removed { node with next := console.recycleList } with recycleList := some removed }

/-- `DeregisterTemp`. -/
def deregisterTemp (console : CommandMemory C) (name : List UInt8) : Option (CommandMemory C) := do
  match console.firstCommand with
  | none => some console
  | some first =>
      let firstNode ← console.memory first
      if firstNode.value.isTempOf name then ({ console with firstCommand := firstNode.next }).recycle first
      else
        let p ← findBefore console.memory (RegisteredCommand.isTempOf name) console.size first
        let node ← console.memory p
        match node.next with
        | none => some console
        | some removed =>
            let removedNode ← console.memory removed
            (console.write p { node with next := removedNode.next }).recycle removed

/-- `DeregisterTempAll`. -/
def deregisterTempAll (console : CommandMemory C) : Option (CommandMemory C) := do
  -- set non temp as first one
  let first ← findNode console.memory (!·.temp) console.size console.firstCommand
  -- remove temp entries from command list
  let memory ← unlinkBehind console.memory (·.temp) console.size first
  some
    { console with
      memory := fun p => (memory p).filter fun node => !node.value.ofTempCommands
      firstCommand := first
      recycleList := none }

/-- A call. -/
inductive Op (C : Type) where
  | register (name params : List UInt8) (flags : ℕ) (callback : C) (help : List UInt8)
  | registerTemp (name params : List UInt8) (flags : ℕ) (help : List UInt8)
  | deregisterTemp (name : List UInt8)
  | deregisterTempAll

/-- One call; `none` if it follows a pointer to memory that is not there, or does not return. -/
def step (console : CommandMemory C) : Op C → Option (CommandMemory C)
  | .register name params flags callback help => console.register name params flags callback help
  | .registerTemp name params flags help => console.registerTemp name params flags help
  | .deregisterTemp name => console.deregisterTemp name
  | .deregisterTempAll => console.deregisterTempAll

/-- Calls. -/
def run (console : CommandMemory C) (ops : List (Op C)) : Option (CommandMemory C) := ops.foldlM step console

end CommandMemory

/-! ### The commands that are registered -/

/-- The commands that are registered, in their order, and those that have been recycled, the last one first. -/
structure CommandLists (C : Type) where
  commands : List (RegisteredCommand C)
  recycled : List (RegisteredCommand C)

namespace CommandLists

/-- A command is registered in front of the first one that it does not stand behind. -/
def add (s : CommandLists C) (command : RegisteredCommand C) : CommandLists C :=
  { s with commands := insertFirst (fun next command => command.comesFirst next) command s.commands }

/-- What a call registers and deregisters. -/
def step (s : CommandLists C) : CommandMemory.Op C → CommandLists C
  | .register name params flags callback help =>
      if s.commands.any (·.isFound name flags) then
        { s with commands := s.commands.replaceF fun command =>
            if command.isFound name flags then some (command.setRegistered name params flags callback help) else none }
      else s.add ((RegisteredCommand.blank false).setRegistered name params flags callback help)
  | .registerTemp name params flags help =>
      match s.recycled with
      | [] => s.add ((RegisteredCommand.blank true).setTemp name params flags help)
      | command :: recycled => { s with recycled := recycled }.add (command.setTemp name params flags help)
  | .deregisterTemp name =>
      ⟨s.commands.eraseP (·.isTempOf name), (s.commands.find? (·.isTempOf name)).toList ++ s.recycled⟩
  | .deregisterTempAll => ⟨s.commands.filter (!·.temp), []⟩

/-- The commands are in the order of `AddCommandSorted`. -/
def Sorted (commands : List (RegisteredCommand C)) : Prop := commands.Pairwise fun a b => a.comesFirst b

/-- A command of this name does not come before the only one. -/
def FitsIn (s : CommandLists C) (name : List UInt8) : Bool :=
  match s.commands with
  | [only] => strComp name only.name = .gt
  | _ => true

/-- What a call has to keep to: a command that is added does not come before the only one, a command that is
registered again keeps its place in the order, and no command in `m_TempCommands` is permanent when that memory is
reset. -/
def Meets (s : CommandLists C) : CommandMemory.Op C → Prop
  | .register name params flags callback help =>
      if s.commands.any (·.isFound name flags) then
        Sorted (s.step (.register name params flags callback help)).commands
      else s.FitsIn name
  | .registerTemp name _ _ _ => s.FitsIn (strCopy tempcmdNameLength name)
  | .deregisterTemp _ => True
  | .deregisterTempAll => ∀ command ∈ s.commands, command.ofTempCommands = true → command.temp = true

/-- Every call of a sequence keeps to that. -/
def MeetsAll (s : CommandLists C) : List (CommandMemory.Op C) → Prop
  | [] => True
  | op :: ops => s.Meets op ∧ MeetsAll (s.step op) ops

instance (commands : List (RegisteredCommand C)) : Decidable (Sorted commands) :=
  inferInstanceAs (Decidable (commands.Pairwise fun a b => a.comesFirst b = true))

instance (s : CommandLists C) : (op : CommandMemory.Op C) → Decidable (s.Meets op)
  | .register _ _ _ _ _ => inferInstanceAs (Decidable (ite _ _ _))
  | .registerTemp _ _ _ _ => inferInstanceAs (Decidable (_ = true))
  | .deregisterTemp _ => isTrue trivial
  | .deregisterTempAll => inferInstanceAs (Decidable (∀ command ∈ s.commands, _))

instance decidableMeetsAll : (s : CommandLists C) → (ops : List (CommandMemory.Op C)) → Decidable (s.MeetsAll ops)
  | _, [] => isTrue trivial
  | s, op :: ops => @instDecidableAnd _ _ _ (decidableMeetsAll (s.step op) ops)

end CommandLists

/-! ### Order -/

lemma strComp_ne_gt_trans {a b c : List UInt8} (hab : strComp a b ≠ .gt) (hbc : strComp b c ≠ .gt) :
    strComp a c ≠ .gt := by
  induction a generalizing b c with
  | nil => cases c <;> simp [strComp]
  | cons x a ih =>
    cases b with
    | nil => simp [strComp] at hab
    | cons y b =>
      cases c with
      | nil => simp [strComp] at hbc
      | cons z c =>
        simp only [strComp] at hab hbc ⊢
        grind

namespace RegisteredCommand

lemma comesFirst_iff {command next : RegisteredCommand C} :
    command.comesFirst next = true ↔ strComp command.name next.name ≠ .gt := by simp [comesFirst]

lemma comesFirst_total (a b : RegisteredCommand C) : a.comesFirst b = true ∨ b.comesFirst a = true := by
  rw [comesFirst_iff, comesFirst_iff, strComp_swap a.name b.name]
  cases strComp a.name b.name <;> simp

instance : Std.Total fun next command : RegisteredCommand C => command.comesFirst next = true :=
  ⟨fun a b => comesFirst_total b a⟩

instance : IsTrans (RegisteredCommand C) fun next command => command.comesFirst next = true :=
  ⟨fun _ _ _ hab hbc => comesFirst_iff.2 (strComp_ne_gt_trans (comesFirst_iff.1 hbc) (comesFirst_iff.1 hab))⟩

end RegisteredCommand

lemma CommandLists.sorted_add {s : CommandLists C} (h : Sorted s.commands) (command : RegisteredCommand C) :
    Sorted (s.add command).commands := pairwise_insertFirst command h

lemma CommandLists.sorted_step {s : CommandLists C} (h : Sorted s.commands) {op : CommandMemory.Op C}
    (hmeets : s.Meets op) : Sorted (s.step op).commands := by
  cases op with
  | register name params flags callback help =>
    by_cases hfound : s.commands.any (·.isFound name flags) = true
    · rw [Meets, if_pos hfound] at hmeets
      exact hmeets
    · rw [step, if_neg hfound]
      exact sorted_add h _
  | registerTemp name params flags help =>
    rw [step]
    split
    · exact sorted_add h _
    · exact sorted_add (s := { s with recycled := _ }) h _
  | deregisterTemp name => exact h.sublist List.eraseP_sublist
  | deregisterTempAll => exact h.sublist List.filter_sublist

/-! ### The lists in memory -/

/-- The nodes that are visited from `m_pFirstCommand` and from `m_pRecycleList`. -/
structure Lists (console : CommandMemory C) (xs rs : List (ℕ × RegisteredCommand C)) : Prop where
  commands : Segment console.memory console.firstCommand xs none
  recycled : Segment console.memory console.recycleList rs none
  /-- No node is visited twice, or in both lists. -/
  nodup : (addresses (xs ++ rs)).Nodup
  fresh : ∀ p, console.memory p ≠ none → p < console.size

lemma lt_of_update {mem : Memory ℕ (RegisteredCommand C)} {size p q : ℕ} {node : Node ℕ (RegisteredCommand C)}
    (h : ∀ q, mem q ≠ none → q < size) (hp : p < size) (hq : Function.update mem p (some node) q ≠ none) :
    q < size := by
  by_cases hqp : q = p
  · rw [hqp]
    exact hp
  · exact h q (by rwa [Function.update_of_ne hqp] at hq)

namespace Lists

variable {console : CommandMemory C} {xs rs : List (ℕ × RegisteredCommand C)} {p : ℕ} {v : RegisteredCommand C}

lemma init : Lists (CommandMemory.init : CommandMemory C) [] [] :=
  ⟨rfl, rfl, List.nodup_nil, fun _ h => absurd rfl h⟩

lemma length_le (h : Lists console xs rs) : xs.length ≤ console.size := by
  have hsub : (addresses xs).toFinset ⊆ Finset.range console.size := by
    intro p hp
    exact Finset.mem_range.2 (h.fresh p (h.commands.mem_ne_none (List.mem_toFinset.1 hp)))
  have hcard := Finset.card_le_card hsub
  rwa [List.toFinset_card_of_nodup h.commands.nodup, Finset.card_range, List.length_map] at hcard

lemma notMem_of_size_le (h : Lists console xs rs) (hp : console.size ≤ p) : p ∉ addresses (xs ++ rs) := by
  intro hmem
  rw [addresses, List.map_append, List.mem_append] at hmem
  obtain hmem | hmem := hmem
  · exact absurd (h.fresh p (h.commands.mem_ne_none hmem)) (not_lt.2 hp)
  · exact absurd (h.fresh p (h.recycled.mem_ne_none hmem)) (not_lt.2 hp)

lemma notMem_recycled (h : Lists console xs rs) (hp : p ∈ addresses xs) : p ∉ addresses rs := fun hmem =>
  List.disjoint_of_nodup_append (by simpa only [addresses, List.map_append] using h.nodup) hp hmem

/-- A node that is not of the lists is written. -/
lemma write (h : Lists console xs rs) (hp : p ∉ addresses (xs ++ rs)) (hsize : p < console.size)
    (node : Node ℕ (RegisteredCommand C)) : Lists (console.write p node) xs rs := by
  rw [addresses, List.map_append, List.mem_append, not_or] at hp
  exact ⟨h.commands.write hp.1 node, h.recycled.write hp.2 node, h.nodup, fun q => lt_of_update h.fresh hsize⟩

lemma allocate (h : Lists console xs rs) (command : RegisteredCommand C) :
    Lists (console.allocate command) xs rs := by
  have hp := h.notMem_of_size_le le_rfl
  rw [addresses, List.map_append, List.mem_append, not_or] at hp
  refine ⟨h.commands.write hp.1 _, h.recycled.write hp.2 _, h.nodup, fun q => lt_of_update ?_ (Nat.lt_succ_self _)⟩
  exact fun q hq => Nat.lt_succ_of_lt (h.fresh q hq)

/-- A node is put in front of the first one that its command does not stand behind. -/
lemma addCommandSorted (h : Lists console xs rs) {next : Option ℕ} (hp : console.memory p = some ⟨v, next⟩)
    (hmem : p ∉ addresses (xs ++ rs)) (hfits : ∀ c, xs = [c] → v.comesFirst c.2 = false) :
    ∃ console', console.addCommandSorted p = some console' ∧
      Lists console' (insertFirst (fun next command => command.2.comesFirst next.2) (p, v) xs) rs := by
  have hsize : p < console.size := h.fresh p (by rw [hp]; exact Option.some_ne_none _)
  have hnodup : (addresses (insertFirst (fun next command => command.2.comesFirst next.2) (p, v) xs ++ rs)).Nodup := by
    refine (((insertFirst_perm _ xs).append_right rs).map Prod.fst).nodup_iff.2 ?_
    exact List.nodup_cons.2 ⟨hmem, h.nodup⟩
  obtain ⟨hxs, hrs⟩ := not_or.1 (mt List.mem_append.2 (by rwa [addresses, List.map_append] at hmem))
  have hcommands := h.commands
  cases xs with
  | nil =>
    have hfirst : console.firstCommand = none := hcommands
    refine ⟨{ console.write p ⟨v, none⟩ with firstCommand := some p }, ?_, ⟨rfl, none, ?_, rfl⟩, h.recycled.write hrs _,
      hnodup, fun q => lt_of_update h.fresh hsize⟩
    · simp [CommandMemory.addCommandSorted, hp, hfirst]
    · exact Function.update_self ..
  | cons x xs =>
    obtain ⟨x, a⟩ := x
    obtain ⟨hfirst, after, hx, hafter⟩ := hcommands
    cases hva : v.comesFirst a with
    | true =>
      -- there is a second command, so the pointer to the first one is kept
      have hsome : after.isSome = true := by
        cases xs with
        | nil => exact Bool.noConfusion (hva.symm.trans (hfits (x, a) rfl))
        | cons y xs => rw [hafter.1]; rfl
      refine ⟨{ console.write p ⟨v, some x⟩ with firstCommand := some p }, ?_, ?_, h.recycled.write hrs _,
        hnodup, fun q => lt_of_update h.fresh hsize⟩
      · simp [CommandMemory.addCommandSorted, hp, hfirst, hx, hva, hsome]
      · rw [insertFirst, if_pos hva]
        refine ⟨rfl, some x, Function.update_self .., ?_⟩
        rw [← hfirst]
        exact h.commands.write hxs _
    | false =>
      obtain ⟨as, y, b, hsplit, hbefore⟩ := findBefore_eq (f := (v.comesFirst ·))
        (by rw [← hfirst]; exact h.commands) (Nat.lt_of_succ_le h.length_le)
      have hrest : ∀ rest, as ++ (y, b) :: rest = (x, a) :: (xs.takeWhile (!v.comesFirst ·.2) ++ rest) := by
        intro rest
        rw [List.append_cons, ← hsplit, List.cons_append]
      have hwhole : (x, a) :: xs = as ++ (y, b) :: xs.dropWhile (!v.comesFirst ·.2) := by
        rw [hrest, List.takeWhile_append_dropWhile]
      have hinsert : insertFirst (fun next command => command.2.comesFirst next.2) (p, v) ((x, a) :: xs) =
          as ++ (y, b) :: (p, v) :: xs.dropWhile (!v.comesFirst ·.2) := by
        rw [insertFirst, if_neg (by rw [hva]; exact Bool.false_ne_true), insertFirst_eq, hrest]
        simp
      rw [hinsert] at hnodup ⊢
      have hcommands := h.commands
      rw [hwhole] at hcommands hxs
      obtain ⟨next', hy, hlinked⟩ := hcommands.insertAfter hxs (a := v)
      have hy' : y ∈ addresses ((x, a) :: xs) := by
        rw [hwhole]
        exact List.mem_map_of_mem (List.mem_append_right as List.mem_cons_self)
      have hyr : y ∉ addresses rs := h.notMem_recycled hy'
      refine ⟨(console.write p ⟨v, next'⟩).write y ⟨b, some p⟩, ?_, hlinked, (h.recycled.write hrs _).write hyr _,
        hnodup, fun q => lt_of_update (fun q => lt_of_update h.fresh hsize) ?_⟩
      · simp [CommandMemory.addCommandSorted, hp, hfirst, hx, hva, hbefore, hy]
      · exact h.fresh y (h.commands.mem_ne_none hy')

/-- A node that is not of the lists is added to the recycle list. -/
lemma recycle (h : Lists console xs rs) {next : Option ℕ} (hp : console.memory p = some ⟨v, next⟩)
    (hmem : p ∉ addresses (xs ++ rs)) :
    ∃ console', console.recycle p = some console' ∧ Lists console' xs ((p, v) :: rs) := by
  obtain ⟨hxs, hrs⟩ := not_or.1 (mt List.mem_append.2 (by rwa [addresses, List.map_append] at hmem))
  have hsize : p < console.size := h.fresh p (by rw [hp]; exact Option.some_ne_none _)
  refine ⟨{ console.write p ⟨v, console.recycleList⟩ with recycleList := some p }, ?_, h.commands.write hxs _,
    ⟨rfl, console.recycleList, Function.update_self .., h.recycled.write hrs _⟩, ?_, fun q => lt_of_update h.fresh hsize⟩
  · simp [CommandMemory.recycle, hp]
  · rw [addresses, (List.perm_middle.map Prod.fst).nodup_iff]
    exact List.nodup_cons.2 ⟨hmem, h.nodup⟩

/-- The node behind another one is unlinked. -/
lemma removeAfter {as ds : List (ℕ × RegisteredCommand C)} {y z : ℕ} {b c : RegisteredCommand C}
    (h : Lists console (as ++ (y, b) :: (z, c) :: ds) rs) :
    ∃ next, console.memory y = some ⟨b, some z⟩ ∧ console.memory z = some ⟨c, next⟩ ∧
      (console.write y ⟨b, next⟩).memory z = some ⟨c, next⟩ ∧ z ∉ addresses (as ++ (y, b) :: ds ++ rs) ∧
      Lists (console.write y ⟨b, next⟩) (as ++ (y, b) :: ds) rs := by
  obtain ⟨next, hy, hz, hlinked⟩ := h.commands.removeAfter
  have hperm : (as ++ (y, b) :: (z, c) :: ds ++ rs).Perm ((z, c) :: (as ++ (y, b) :: ds ++ rs)) := by
    simp only [List.append_assoc, List.cons_append]
    exact ((List.Perm.swap (z, c) (y, b) _).append_left as).trans List.perm_middle
  have hnodup : z ∉ addresses (as ++ (y, b) :: ds ++ rs) ∧ (addresses (as ++ (y, b) :: ds ++ rs)).Nodup :=
    List.nodup_cons.1 ((hperm.map Prod.fst).nodup_iff.1 h.nodup)
  have hymem : ∀ ds : List (ℕ × RegisteredCommand C), y ∈ addresses (as ++ (y, b) :: ds) := fun ds =>
    List.mem_map_of_mem (List.mem_append_right as List.mem_cons_self)
  have hzy : z ≠ y := by
    rintro rfl
    exact hnodup.1 (by rw [addresses, List.map_append]; exact List.mem_append_left _ (hymem ds))
  exact ⟨next, hy, hz, (Function.update_of_ne hzy _ _).trans hz, hnodup.1, hlinked,
    h.recycled.write (h.notMem_recycled (hymem _)) _, hnodup.2,
    fun q => lt_of_update h.fresh (h.fresh y (by rw [hy]; exact Option.some_ne_none _))⟩

end Lists

/-! ### One call -/

/-- The commands of the nodes. -/
def commandLists (xs rs : List (ℕ × RegisteredCommand C)) : CommandLists C := ⟨xs.map Prod.snd, rs.map Prod.snd⟩

lemma replaceF_append {f : RegisteredCommand C → Option (RegisteredCommand C)} {as bs : List (RegisteredCommand C)}
    {a a' : RegisteredCommand C} (has : ∀ c ∈ as, f c = none) (ha : f a = some a') :
    (as ++ a :: bs).replaceF f = as ++ a' :: bs := by
  induction as with
  | nil => exact List.replaceF_cons_of_some f ha
  | cons c as ih =>
    rw [List.cons_append, List.replaceF_cons_of_none f (has c List.mem_cons_self),
      ih fun d hd => has d (List.mem_cons_of_mem c hd), List.cons_append]

namespace Lists

open CommandLists

variable {console : CommandMemory C} {xs rs : List (ℕ × RegisteredCommand C)}

/-- A command is added. -/
lemma add (h : Lists console xs rs) {p : ℕ} {v : RegisteredCommand C} {next : Option ℕ}
    (hp : console.memory p = some ⟨v, next⟩) (hmem : p ∉ addresses (xs ++ rs))
    (hfits : (commandLists xs rs).FitsIn v.name) :
    ∃ console' xs', console.addCommandSorted p = some console' ∧ Lists console' xs' rs ∧
      commandLists xs' rs = (commandLists xs rs).add v := by
  obtain ⟨console', hconsole', hlists⟩ := h.addCommandSorted hp hmem fun c hc => by
    rw [← Bool.not_eq_true, RegisteredCommand.comesFirst_iff, not_not]
    subst hc
    simpa [commandLists, CommandLists.FitsIn] using hfits
  refine ⟨console', _, hconsole', hlists, ?_⟩
  exact congrArg (CommandLists.mk · _) (map_insertFirst (r := fun next command => command.comesFirst next = true)
    Prod.snd (p, v) xs)

lemma register (h : Lists console xs rs) {name params help : List UInt8} {flags : ℕ} {callback : C}
    (hmeets : (commandLists xs rs).Meets (.register name params flags callback help)) :
    ∃ console' xs', console.register name params flags callback help = some console' ∧ Lists console' xs' rs ∧
      commandLists xs' rs = (commandLists xs rs).step (.register name params flags callback help) := by
  have hfind := findNode_eq (f := RegisteredCommand.isFound name flags) h.commands h.length_le
  rw [← CommandMemory.findCommand] at hfind
  have hany : (commandLists xs rs).commands.any (·.isFound name flags) = (xs.find? (·.2.isFound name flags)).isSome := by
    rw [Bool.eq_iff_iff, commandLists, List.any_map, List.any_eq_true, List.find?_isSome]
    rfl
  rw [Meets, hany] at hmeets
  rw [step, hany]
  cases hxs : xs.find? (·.2.isFound name flags) with
  | none =>
    rw [hxs, Option.map_none] at hfind
    rw [hxs, Option.isSome_none, if_neg Bool.false_ne_true] at hmeets
    obtain ⟨console', xs', hconsole', hlists, hadd⟩ := (h.allocate ((RegisteredCommand.blank false).setRegistered name
      params flags callback help)).add (Function.update_self ..) (h.notMem_of_size_le le_rfl)
      (by rw [RegisteredCommand.setRegistered_name]; exact hmeets)
    refine ⟨console', xs', ?_, hlists, hadd⟩
    rw [CommandMemory.register, hfind]
    exact hconsole'
  | some found =>
    obtain ⟨p, a⟩ := found
    obtain ⟨hfound, as, bs, rfl, has⟩ := List.find?_eq_some_iff_append.1 hxs
    rw [hxs, Option.map_some] at hfind
    obtain ⟨next, hp, hlinked⟩ := h.commands.setValue (a.setRegistered name params flags callback help)
    have hmem : p ∈ addresses (as ++ (p, a) :: bs) := List.mem_map_of_mem (List.mem_append_right as List.mem_cons_self)
    have hrs : p ∉ addresses rs := fun hrs =>
      List.disjoint_of_nodup_append (by simpa only [addresses, List.map_append] using h.nodup) hmem hrs
    refine ⟨console.write p ⟨a.setRegistered name params flags callback help, next⟩, _, ?_,
      ⟨hlinked, h.recycled.write hrs _, ?_, fun q => lt_of_update h.fresh (h.fresh p (h.commands.mem_ne_none hmem))⟩, ?_⟩
    · simp [CommandMemory.register, hfind, hp]
    · simpa [addresses] using h.nodup
    · rw [Option.isSome_some, if_pos rfl]
      refine congrArg (CommandLists.mk · _) ?_
      rw [commandLists, List.map_append, List.map_append, List.map_cons, List.map_cons, replaceF_append]
      · intro c hc
        obtain ⟨d, hd, rfl⟩ := List.mem_map.1 hc
        simpa using has d hd
      · rw [if_pos hfound]

lemma registerTemp (h : Lists console xs rs) {name params help : List UInt8} {flags : ℕ}
    (hmeets : (commandLists xs rs).Meets (.registerTemp name params flags help)) :
    ∃ console' xs' rs', console.registerTemp name params flags help = some console' ∧ Lists console' xs' rs' ∧
      commandLists xs' rs' = (commandLists xs rs).step (.registerTemp name params flags help) := by
  have hrecycled := h.recycled
  cases rs with
  | nil =>
    have hlist : console.recycleList = none := hrecycled
    obtain ⟨console', xs', hconsole', hlists, hadd⟩ := (h.allocate ((RegisteredCommand.blank true).setTemp name
      params flags help)).add (Function.update_self ..) (h.notMem_of_size_le le_rfl) hmeets
    refine ⟨console', xs', [], ?_, hlists, hadd⟩
    rw [CommandMemory.registerTemp, hlist]
    exact hconsole'
  | cons r rs =>
    obtain ⟨p, a⟩ := r
    obtain ⟨hlist, next, hp, hrs⟩ := hrecycled
    have hnodup : p ∉ addresses (xs ++ rs) ∧ (addresses (xs ++ rs)).Nodup :=
      List.nodup_cons.1 ((List.perm_middle.map Prod.fst).nodup_iff.1 h.nodup)
    obtain ⟨hmemx, hmemr⟩ := not_or.1 (mt List.mem_append.2 (by rw [← List.map_append]; exact hnodup.1))
    have hsize : p < console.size := h.fresh p (by rw [hp]; exact Option.some_ne_none _)
    have hlists : Lists { console.write p ⟨a.setTemp name params flags help, next⟩ with recycleList := next } xs rs :=
      ⟨h.commands.write hmemx _, hrs.write hmemr _, hnodup.2, fun q => lt_of_update h.fresh hsize⟩
    obtain ⟨console', xs', hconsole', hlists', hadd⟩ := hlists.add (Function.update_self ..) hnodup.1 hmeets
    refine ⟨console', xs', rs, ?_, hlists', hadd⟩
    simp only [CommandMemory.registerTemp, hlist, hp, Option.bind_eq_bind, Option.bind_some]
    exact hconsole'

lemma deregisterTemp (h : Lists console xs rs) (name : List UInt8) :
    ∃ console' xs' rs', console.deregisterTemp name = some console' ∧ Lists console' xs' rs' ∧
      commandLists xs' rs' = (commandLists xs rs).step (.deregisterTemp name) := by
  have hcommands := h.commands
  cases xs with
  | nil =>
    have hfirst : console.firstCommand = none := hcommands
    exact ⟨console, [], rs, by rw [CommandMemory.deregisterTemp, hfirst], h, rfl⟩
  | cons x xs =>
    obtain ⟨x, a⟩ := x
    obtain ⟨hfirst, after, hx, hafter⟩ := hcommands
    cases hxa : a.isTempOf name with
    | true =>
      have hnodup : x ∉ addresses (xs ++ rs) ∧ (addresses (xs ++ rs)).Nodup := List.nodup_cons.1 h.nodup
      have hlists : Lists { console with firstCommand := after } xs rs := ⟨hafter, h.recycled, hnodup.2, h.fresh⟩
      obtain ⟨console', hconsole', hlists'⟩ := hlists.recycle hx hnodup.1
      refine ⟨console', xs, (x, a) :: rs, ?_, hlists', ?_⟩
      · simp only [CommandMemory.deregisterTemp, hfirst, hx, Option.bind_eq_bind, Option.bind_some, hxa, if_true]
        exact hconsole'
      · simp [commandLists, CommandLists.step, hxa]
    | false =>
      obtain ⟨as, y, b, hsplit, hbefore⟩ := findBefore_eq (f := RegisteredCommand.isTempOf name)
        (by rw [← hfirst]; exact h.commands) (Nat.lt_of_succ_le h.length_le)
      have hnone : ∀ c ∈ as ++ [(y, b)], c.2.isTempOf name = false := by
        intro c hc
        rw [← hsplit] at hc
        obtain rfl | hc := List.mem_cons.1 hc
        · exact hxa
        · simpa using List.mem_takeWhile_imp hc
      have hbefore' : ∀ c ∈ (as ++ [(y, b)]).map Prod.snd, ¬ c.isTempOf name = true := by
        intro c hc
        obtain ⟨d, hd, rfl⟩ := List.mem_map.1 hc
        rw [hnone d hd]
        exact Bool.false_ne_true
      have hwhole : (x, a) :: xs = (as ++ [(y, b)]) ++ xs.dropWhile (!·.2.isTempOf name) := by
        rw [← hsplit, List.cons_append, List.takeWhile_append_dropWhile]
      rw [CommandMemory.deregisterTemp, hfirst]
      simp only [hx, Option.bind_eq_bind, Option.bind_some, hxa, hbefore, if_neg Bool.false_ne_true]
      rw [hwhole] at h ⊢
      clear hsplit hwhole hafter hx hxa hfirst hbefore
      cases hdrop : xs.dropWhile (!·.2.isTempOf name) with
      | nil =>
        rw [hdrop, List.append_nil] at h
        rw [List.append_nil]
        obtain ⟨next, hy, -, rfl⟩ := h.commands.split ⟨b, none⟩
        refine ⟨console, as ++ [(y, b)], rs, by simp only [hy, Option.bind_some], h, ?_⟩
        rw [CommandLists.step, commandLists, List.eraseP_of_forall_not hbefore', List.find?_eq_none.2 hbefore']
        rfl
      | cons z ds =>
        obtain ⟨z, c⟩ := z
        have hc : c.isTempOf name = true := by
          have hhead := head?_dropWhile (y := (z, c)) (by rw [hdrop]; rfl)
          simpa using hhead
        rw [hdrop, ← List.append_cons] at h
        rw [← List.append_cons]
        obtain ⟨next, hy, hz, hz', hmem, hlists⟩ := h.removeAfter
        obtain ⟨console', hconsole', hlists'⟩ := hlists.recycle hz' hmem
        refine ⟨console', as ++ (y, b) :: ds, (z, c) :: rs, ?_, hlists', ?_⟩
        · simp only [hy, hz, Option.bind_some]
          exact hconsole'
        · have hmap : (as ++ (y, b) :: (z, c) :: ds).map Prod.snd =
              (as ++ [(y, b)]).map Prod.snd ++ c :: ds.map Prod.snd := by simp
          have hfind : ((as ++ [(y, b)]).map Prod.snd ++ c :: ds.map Prod.snd).find? (·.isTempOf name) = some c :=
            List.find?_eq_some_iff_append.2 ⟨hc, _, _, rfl, fun d hd => by simpa using hbefore' d hd⟩
          rw [CommandLists.step, commandLists, commandLists, hmap, List.eraseP_append_right _ hbefore',
            List.eraseP_cons_of_pos hc, hfind]
          simp

lemma deregisterTempAll (h : Lists console xs rs)
    (hmeets : (commandLists xs rs).Meets .deregisterTempAll) :
    ∃ console' xs' rs', console.deregisterTempAll = some console' ∧ Lists console' xs' rs' ∧
      commandLists xs' rs' = (commandLists xs rs).step .deregisterTempAll := by
  have hfind := findNode_not_eq (f := (·.temp)) h.commands h.length_le
  obtain ⟨memory, hmemory, hlinked, hframe⟩ := unlinkBehind_eq (segment_dropWhile h.commands (·.2.temp))
    (fun y => head?_dropWhile) (Nat.le_trans (List.dropWhile_sublist _).length_le h.length_le)
  rw [filter_dropWhile] at hlinked
  refine ⟨⟨fun p => (memory p).filter fun node => !node.value.ofTempCommands, console.size,
    (xs.dropWhile (·.2.temp)).head?.map Prod.fst, none⟩, xs.filter (!·.2.temp), [], ?_,
    ⟨hlinked.free (f := (!·.ofTempCommands)) ?_, rfl, ?_, ?_⟩, ?_⟩
  · simp only [CommandMemory.deregisterTempAll, hfind, hmemory, Option.bind_eq_bind, Option.bind_some]
  · intro x hx
    obtain ⟨hx, htemp⟩ := List.mem_filter.1 hx
    have hof := mt (hmeets x.2 (List.mem_map_of_mem hx)) (by simpa using htemp)
    simpa using hof
  · rw [List.append_nil]
    exact h.commands.nodup.sublist (List.filter_sublist.map _)
  · intro p hp
    have hmem : memory p ≠ none := fun hnone => hp (by simp [hnone])
    by_cases hxs : p ∈ addresses xs
    · exact h.fresh p (h.commands.mem_ne_none hxs)
    · rw [hframe p fun hdrop => hxs (((List.dropWhile_sublist _).map _).subset hdrop)] at hmem
      exact h.fresh p hmem
  · rw [commandLists, CommandLists.step, commandLists, List.filter_map]
    rfl

end Lists

/-! ### Every call -/

/-- Walking the lists visits exactly these commands, and those of the console are in their order. -/
structure WellKept (console : CommandMemory C) (s : CommandLists C) : Prop where
  lists : ∃ xs rs, Lists console xs rs ∧ commandLists xs rs = s
  sorted : CommandLists.Sorted s.commands

lemma WellKept.step {console : CommandMemory C} {s : CommandLists C} (h : WellKept console s)
    {op : CommandMemory.Op C} (hmeets : s.Meets op) :
    ∃ console', console.step op = some console' ∧ WellKept console' (s.step op) := by
  obtain ⟨⟨xs, rs, hlists, rfl⟩, hsorted⟩ := h
  have hsorted' := CommandLists.sorted_step hsorted hmeets
  cases op with
  | register name params flags callback help =>
    obtain ⟨console', xs', hconsole', hlists', heq⟩ := hlists.register hmeets
    exact ⟨console', hconsole', ⟨xs', rs, hlists', heq⟩, hsorted'⟩
  | registerTemp name params flags help =>
    obtain ⟨console', xs', rs', hconsole', hlists', heq⟩ := hlists.registerTemp hmeets
    exact ⟨console', hconsole', ⟨xs', rs', hlists', heq⟩, hsorted'⟩
  | deregisterTemp name =>
    obtain ⟨console', xs', rs', hconsole', hlists', heq⟩ := hlists.deregisterTemp name
    exact ⟨console', hconsole', ⟨xs', rs', hlists', heq⟩, hsorted'⟩
  | deregisterTempAll =>
    obtain ⟨console', xs', rs', hconsole', hlists', heq⟩ := hlists.deregisterTempAll hmeets
    exact ⟨console', hconsole', ⟨xs', rs', hlists', heq⟩, hsorted'⟩

lemma WellKept.run {console : CommandMemory C} {s : CommandLists C} (h : WellKept console s)
    {ops : List (CommandMemory.Op C)} (hmeets : s.MeetsAll ops) :
    ∃ console', console.run ops = some console' ∧ WellKept console' (ops.foldl CommandLists.step s) := by
  induction ops generalizing console s with
  | nil => exact ⟨console, rfl, h⟩
  | cons op ops ih =>
    obtain ⟨hop, hops⟩ := hmeets
    obtain ⟨console₁, hconsole₁, h₁⟩ := h.step hop
    obtain ⟨console', hconsole', h'⟩ := ih h₁ hops
    refine ⟨console', ?_, h'⟩
    rw [CommandMemory.run, List.foldlM_cons, hconsole₁]
    exact hconsole'

namespace CommandMemory

/-- The lists visit exactly the commands that are registered. -/
def Keeps (ops : List (Op C)) : Prop :=
  ∃ console, (init : CommandMemory C).run ops = some console ∧ WellKept console (ops.foldl CommandLists.step ⟨[], []⟩)

/-- Calls that keep to the conditions return, and the lists visit exactly the commands that are registered. -/
theorem run_keeps {ops : List (Op C)} (hmeets : CommandLists.MeetsAll ⟨[], []⟩ ops) : Keeps ops :=
  WellKept.run ⟨⟨[], [], .init, rfl⟩, List.Pairwise.nil⟩ hmeets

/-- A call of `Register` for the server. -/
def registerOp (name : List Char) : Op Unit := .register (ofChars name) [] cfgflagServer () []

/-- A call of `RegisterTemp` for the server. -/
def registerTempOp (name : List Char) : Op Unit := .registerTemp (ofChars name) [] cfgflagServer []

theorem run_keeps_calls : Keeps [registerOp ['b'], registerOp ['c'], registerTempOp ['a'], registerTempOp ['d'],
    .deregisterTemp (ofChars ['d']), registerTempOp ['b', 'b'], registerOp ['c'], .deregisterTempAll] :=
  run_keeps (by decide +kernel)

/-- The only command is lost if another one is registered in front of it, a command that is registered again in other
letters is not moved, and a temporary command that is registered is freed with the others. -/
theorem not_keeps : ¬ Keeps [registerOp ['b'], registerOp ['a']] ∧
    ¬ Keeps [registerOp ['e', 'c', 'h', 'o'], registerOp ['e', 'x', 'e', 'c'], registerOp ['E', 'X', 'E', 'C']] ∧
    ¬ Keeps [registerOp ['a'], registerTempOp ['b'], registerOp ['b'], .deregisterTempAll] := by
  refine ⟨?_, ?_, ?_⟩
  · rintro ⟨console, hrun, ⟨xs, rs, hlists, hcommands⟩, -⟩
    obtain rfl := Option.some.inj hrun
    have hwalk : xs = [(1, _)] := hlists.commands.unique ⟨rfl, none, rfl, rfl⟩
    have hlength := congrArg (fun s => s.commands.length) hcommands
    rw [hwalk] at hlength
    exact absurd (show (1 : ℕ) = 2 from hlength) (by decide)
  · rintro ⟨-, -, -, hsorted⟩
    exact absurd hsorted (by decide +kernel)
  · rintro ⟨console, hrun, ⟨xs, rs, hlists, hcommands⟩, -⟩
    obtain rfl := Option.some.inj hrun
    have hlength := congrArg (fun s => s.commands.length) hcommands
    match xs, hlists.commands, hlength with
    | [(x, a), (y, b)], ⟨hfirst, next, hx, hnext, after, hy, _⟩, _ =>
      obtain rfl : 0 = x := Option.some.inj hfirst
      obtain rfl : some 1 = next := congrArg Node.next (Option.some.inj hx)
      obtain rfl : 1 = y := Option.some.inj hnext
      exact Option.some_ne_none _ hy.symm

end CommandMemory

end DDNet
