/-
The entities of the world (`CGameWorld`, `game/server/gameworld.cpp`).

The entities of a type form a doubly linked list, and all loops over such a list share the cursor
`m_pNextTraverseEntity`: it is the entity to visit next, and `RemoveEntity` moves it on when that entity goes.  What a
callback does to the world is a list of actions.  An entity is known by its address, and there are finitely many of these.
-/
import DDNet.Lib.LinkedList
import Mathlib.Data.Fintype.Card

namespace DDNet

open Lib Function

/-! ### The world -/

inductive EntType
  | projectile | laser | pickup | flag | character
  deriving DecidableEq

/-- All types in the order in which they are gone through. -/
def entTypes : List EntType := [.projectile, .laser, .pickup, .flag, .character]

structure GameWorld (ι : Type) where
  firstEntityTypes : EntType → Option ι
  nextTypeEntity : ι → Option ι
  prevTypeEntity : ι → Option ι
  nextTraverseEntity : Option ι

/-- What a callback does to the world; `owner` is what `GetOwnerId` returns for each entity. -/
inductive EntityAction (ι : Type)
  | insertEntity (e : ι)
  | removeEntity (e : ι)
  | removeEntitiesFromPlayers (owner : ι → ℤ) (playerIds : List ℤ)

/-- A callback of a loop: the entity it is for, the entities that were removed in it, and whether it went through the
world itself. -/
structure EntityTurn (ι : Type) where
  entity : ι
  removed : List ι
  traversed : Bool

/-- Why a loop does not come to its end: it does not stop, or an entity is inserted that is in its list already. -/
inductive LoopFailure
  | endless | alreadyListed
  deriving DecidableEq

namespace GameWorld

variable {ι : Type} [DecidableEq ι] (objType : ι → EntType)

/-- The list of the entities of a type. -/
def typeList (w : GameWorld ι) (t : EntType) : DList ι := ⟨w.firstEntityTypes t, w.nextTypeEntity, w.prevTypeEntity⟩

def setTypeList (w : GameWorld ι) (t : EntType) (l : DList ι) : GameWorld ι where
  firstEntityTypes := update w.firstEntityTypes t l.head
  nextTypeEntity := l.next
  prevTypeEntity := l.prev
  nextTraverseEntity := w.nextTraverseEntity

def insertEntity (w : GameWorld ι) (e : ι) : GameWorld ι :=
  w.setTypeList (objType e) ((w.typeList (objType e)).pushFront e)

/-- The test of `RemoveEntity` whether the entity is in the list. -/
def inList (w : GameWorld ι) (e : ι) : Bool :=
  (w.nextTypeEntity e).isSome || (w.prevTypeEntity e).isSome || w.firstEntityTypes (objType e) = some e

def removeEntity (w : GameWorld ι) (e : ι) : GameWorld ι :=
  if w.inList objType e = false then w
  else
    let w' := w.setTypeList (objType e) ((w.typeList (objType e)).unlink e)
    -- keep list traversing valid
    { w' with
      nextTraverseEntity := if w.nextTraverseEntity = some e then w.nextTypeEntity e else w.nextTraverseEntity
      nextTypeEntity := update w'.nextTypeEntity e none
      prevTypeEntity := update w'.prevTypeEntity e none }

/-! ### Loops -/

/-- The loop from the entity `e` on: `visit` is called with the number of the turn, at most `n` times. -/
def forEach {α : Type} (visit : ℕ → GameWorld ι → ι → Except LoopFailure (GameWorld ι × α)) :
    ℕ → ℕ → Option ι → GameWorld ι → Except LoopFailure (GameWorld ι × List α)
  | _, _, none, w => .ok (w, [])
  | 0, _, some _, _ => .error .endless
  | n + 1, k, some e, w => do
    let (w₁, a) ← visit k { w with nextTraverseEntity := w.nextTypeEntity e } e
    let (w₂, as) ← forEach visit n (k + 1) w₁.nextTraverseEntity w₁
    return (w₂, a :: as)

variable [Fintype ι]

/-- The loop over the entities of a type; a list has no more entities than there are addresses. -/
def forType {α : Type} (visit : ℕ → GameWorld ι → ι → Except LoopFailure (GameWorld ι × α)) (t : EntType)
    (w : GameWorld ι) : Except LoopFailure (GameWorld ι × List α) :=
  forEach visit (Fintype.card ι) 0 (w.firstEntityTypes t) w

/-- One turn of the loops that remove entities. -/
def removeVisit (p : ι → Bool) (_ : ℕ) (w : GameWorld ι) (e : ι) : Except LoopFailure (GameWorld ι × List ι) :=
  if p e then .ok (w.removeEntity objType e, [e]) else .ok (w, [])

/-- Go through the types and remove the entities with `p`; the entities that were removed are returned as well. -/
def removeWhere (p : ι → Bool) : List EntType → GameWorld ι → Except LoopFailure (GameWorld ι × List ι)
  | [], w => .ok (w, [])
  | t :: ts, w => do
    let (w₁, removed) ← forType (removeVisit objType p) t w
    let (w₂, rest) ← removeWhere p ts w₁
    return (w₂, removed.flatten ++ rest)

def removeEntitiesFromPlayers (owner : ι → ℤ) (playerIds : List ℤ) (w : GameWorld ι) :
    Except LoopFailure (GameWorld ι × List ι) :=
  removeWhere objType (fun e => owner e ∈ playerIds) entTypes w

/-- Destroy the objects marked for destruction. -/
def removeEntities (marked : ι → Bool) (w : GameWorld ι) : Except LoopFailure (GameWorld ι × List ι) :=
  removeWhere objType marked entTypes w

/-! ### Callbacks -/

/-- An action: the world after it, the entities it removes and whether it goes through the world. -/
def act (w : GameWorld ι) : EntityAction ι → Except LoopFailure (GameWorld ι × List ι × Bool)
  | .insertEntity e => if w.inList objType e then .error .alreadyListed else .ok (w.insertEntity objType e, [], false)
  | .removeEntity e => .ok (w.removeEntity objType e, [e], false)
  | .removeEntitiesFromPlayers owner playerIds => do
    let (w', removed) ← w.removeEntitiesFromPlayers objType owner playerIds
    return (w', removed, true)

def actAll (w : GameWorld ι) : List (EntityAction ι) → Except LoopFailure (GameWorld ι × List ι × Bool)
  | [] => .ok (w, [], false)
  | a :: actions => do
    let (w₁, removed, traversed) ← w.act objType a
    let (w₂, removed', traversed') ← w₁.actAll actions
    return (w₂, removed ++ removed', traversed || traversed')

/-- The callback in the `k`-th turn of a loop, for the entity `e`. -/
def callback (behaviour : ℕ → List (EntityAction ι)) (k : ℕ) (w : GameWorld ι) (e : ι) :
    Except LoopFailure (GameWorld ι × EntityTurn ι) := do
  let (w', removed, traversed) ← w.actAll objType (behaviour k)
  return (w', ⟨e, removed, traversed⟩)

/-- The loop that calls back the entities of a type. -/
def tickType (behaviour : ℕ → List (EntityAction ι)) (t : EntType) (w : GameWorld ι) :
    Except LoopFailure (GameWorld ι × List (EntityTurn ι)) :=
  forType (callback objType behaviour) t w

end GameWorld

/-! ### A tick -/

inductive EntityCallback
  | preTick | tick | tickDeferred | tickPaused
  deriving DecidableEq

/-- The loops of `CGameWorld::Tick` in their order. -/
def tickLoops (paused noWeakHook : Bool) : List (EntityCallback × EntType) :=
  if paused then entTypes.map fun t => (.tickPaused, t)
  else
    (entTypes.flatMap fun t => (if noWeakHook && t = .character then [(.preTick, t)] else []) ++ [(.tick, t)]) ++
      entTypes.map fun t => (.tickDeferred, t)

/-- A loop of a tick: the world before and after it, and its turns. -/
structure TypeLoop (ι : Type) where
  callback : EntityCallback
  type : EntType
  start : GameWorld ι
  turns : List (EntityTurn ι)
  stop : GameWorld ι

namespace GameWorld

variable {ι : Type} [DecidableEq ι] (objType : ι → EntType) [Fintype ι]

def runLoops (behaviour : EntityCallback → EntType → ℕ → List (EntityAction ι)) :
    List (EntityCallback × EntType) → GameWorld ι → Except LoopFailure (GameWorld ι × List (TypeLoop ι))
  | [], w => .ok (w, [])
  | (c, t) :: loops, w => do
    let (w₁, turns) ← tickType objType (behaviour c t) t w
    let (w₂, rest) ← runLoops behaviour loops w₁
    return (w₂, ⟨c, t, w, turns, w₁⟩ :: rest)

/-- `Tick`, with the entities that are marked for destruction after its loops. -/
def tick (paused noWeakHook : Bool) (behaviour : EntityCallback → EntType → ℕ → List (EntityAction ι))
    (marked : ι → Bool) (w : GameWorld ι) : Except LoopFailure (GameWorld ι × List (TypeLoop ι)) := do
  let (w₁, loops) ← runLoops objType behaviour (tickLoops paused noWeakHook) w
  let (w₂, _) ← w₁.removeEntities objType marked
  return (w₂, loops)

end GameWorld

end DDNet
