/-
Whispering (`CGameContext::Whisper`, `WhisperId` and `Converse`, `game/server/gamecontext.cpp`).

The name of the receiver is compared with what `CServer::ClientName` answers for every slot, also for a slot without a
player.  As long as nobody names such a slot, or gives its id in a message of the other protocol, whispers reach the
named player, in whatever order clients come, go and whisper (`whisper_iff`).
-/
import DDNet.Base.Str
import DDNet.Base.StrParse
import Mathlib.Data.Fin.Basic
import Mathlib.Data.List.FinRange
import Mathlib.Data.List.GetD

namespace DDNet

namespace CGameContext

/-! ### Clients and players -/

/-- The state of a client, as far as `ClientName` tells them apart. -/
inductive NameState
  | empty
  | connecting
  | ingame
deriving DecidableEq

/-- What whispering reads and writes of a player; no target is `-1` in the source. -/
structure WhisperPlayer (n : ℕ) where
  whispers : Bool
  lastWhisperTo : Option (Fin n)

structure WhisperClient (n : ℕ) where
  state : NameState
  name : List UInt8
  sixup : Bool
  version : ℤ
  player : Option (WhisperPlayer n)

/-- The clients and their players. -/
abbrev WhisperContext (n : ℕ) := Fin n → WhisperClient n

/-- What is sent to a client: a whisper with the id of the other one and, unless it is in the other protocol, whether it
is the sender's copy, or a chat message of the server. -/
inductive WhisperMessage (n : ℕ)
  | whisper7 (client sender target : Fin n) (text : List UInt8)
  | whisper (client other : Fin n) (sent : Bool) (text : List UInt8)
  | chatTarget (client : Fin n) (text : List UInt8)

/-- `VERSION_DDNET_WHISPER`. -/
def versionDDNetWhisper : ℤ := 217

variable {n : ℕ} (this : WhisperContext n)

namespace WhisperContext

/-- `CServer::ClientName`, for the id of a slot. -/
def clientName (i : Fin n) : List UInt8 :=
  match (this i).state with
  | .empty => ofChars "(invalid)".toList
  | .connecting => ofChars "(connecting)".toList
  | .ingame => (this i).name

/-- The slot holds an in-game player. -/
def InGame (i : Fin n) : Prop := (this i).state = .ingame ∧ (this i).player.isSome = true

/-- The slot with the id, if there is one (`CheckClientId2`). -/
def slot (id : ℤ) : Option (Fin n) := if h : 0 ≤ id ∧ id.toNat < n then some ⟨id.toNat, h.2⟩ else none

/-- The player of a slot, changed. -/
def updatePlayer (i : Fin n) (f : WhisperPlayer n → WhisperPlayer n) : WhisperContext n :=
  Function.update this i { this i with player := (this i).player.map f }

/-! ### Whispering to a slot -/

/-- What one of the two is sent. -/
def whisperCopy (client clientId victim : Fin n) (sent : Bool) (text : List UInt8) : WhisperMessage n :=
  let other := if sent then victim else clientId
  if (this client).sixup then .whisper7 client clientId victim text
  else if versionDDNetWhisper ≤ (this client).version then .whisper client other sent text
  else .chatTarget client ((if sent then [91, 0xE2, 0x86, 0x92, 32] else [91, 0xE2, 0x86, 0x90, 32]) ++
    this.clientName other ++ [93, 32] ++ text)

/-- `WhisperId`, with what is left of the message after censoring; nothing if an absent player is dereferenced. -/
def whisperId (clientId victim : Fin n) (censored : List UInt8) : Option (WhisperContext n × List (WhisperMessage n)) :=
  let this := this.updatePlayer clientId fun player => { player with lastWhisperTo := some victim }
  let copy := this.whisperCopy clientId clientId victim true censored
  match (this victim).player with
  | none => none
  | some player =>
    if !player.whispers then
      some (this, [copy, .chatTarget clientId (ofChars "This person has disabled receiving whispers".toList)])
    else some (this, [copy, this.whisperCopy victim clientId victim false censored])

/-! ### The name in the text -/

/-- The place whose character is kept: behind a backslash that escapes a backslash or a quote. -/
def escapePlace (memory : List UInt8) (str : ℕ) : Option ℕ :=
  if memory[str]? = some backslash then
    (memory[str + 1]?).map fun c => if c = backslash ∨ c = quote then str + 1 else str
  else some str

lemma le_escapePlace {memory : List UInt8} {str str' : ℕ} (h : escapePlace memory str = some str') : str ≤ str' := by
  rw [escapePlace] at h
  split_ifs at h
  · obtain ⟨c, -, rfl⟩ := Option.map_eq_some_iff.1 h
    split_ifs <;> omega
  · exact (Option.some.inj h).le

/-- The loop that removes the escapes, with the places of `pStr` and `pDst`: whether it stopped at the quote, the
memory, and the two places; nothing if something outside of the memory is read. -/
def unescapeLoop (memory : List UInt8) (str dst : ℕ) : Option (Bool × List UInt8 × ℕ × ℕ) :=
  if hlt : str < memory.length then
    if memory[str] = quote then some (true, memory, str, dst)
    else if memory[str] = 0 then some (false, memory, str, dst)
    else
      match hplace : escapePlace memory str with
      | none => none
      | some str' => unescapeLoop (memory.set dst (memory.getD str' 0)) (str' + 1) (dst + 1)
  else none
termination_by memory.length - str
decreasing_by
  have hle := le_escapePlace hplace
  rw [List.length_set]
  omega

/-- The string at a place of the memory; nothing if it runs out of the memory. -/
def stringAt (memory : List UInt8) (place : ℕ) : Option (List UInt8) :=
  if 0 ∈ memory.drop place then some ((memory.drop place).takeWhile (· ≠ 0)) else none

/-- The first slot for which `ClientName` answers with the name. -/
def firstNamed (name : List UInt8) : Option (Fin n) := (List.finRange n).find? fun i => this.clientName i = name

/-- The loop for a name without quotes, with the place of `pStr`: the slot, and the place of the space behind the
name. -/
def plainLoop (memory : List UInt8) (str : ℕ) : Option (Option (Fin n × ℕ)) :=
  if hlt : str < memory.length then
    if memory[str] = 0 then some none
    else if memory[str] = space then
      match stringAt (memory.set str 0) 0 with
      | none => none
      | some name =>
        match this.firstNamed name with
        | some victim => some (some (victim, str))
        | none => plainLoop memory (str + 1)
    else plainLoop memory (str + 1)
  else none
termination_by memory.length - str

/-- How `Whisper` ends. -/
inductive WhisperOutcome (n : ℕ)
  | invalid
  | noPlayer (name : List UInt8)
  | whisperTo (victim : Fin n) (message : List UInt8)

/-- What `Whisper` reads from the text behind the white space; nothing if something outside of the memory is read. -/
def readWhisper (memory : List UInt8) : Option (WhisperOutcome n) :=
  if memory.head? = some quote then
    match unescapeLoop memory 1 1 with
    | none => none
    | some (false, _) => some .invalid
    | some (true, memory, str, dst) =>
      let memory := memory.set dst 0
      match stringAt memory 1, memory[str + 1]? with
      | some name, some c =>
        if c ≠ space then some .invalid
        else
          match this.firstNamed name with
          | none => some (.noPlayer name)
          | some victim => (stringAt (memory.set (str + 1) 0) (str + 2)).map (.whisperTo victim)
      | _, _ => none
  else
    match this.plainLoop memory 0 with
    | none => none
    | some none => some .invalid
    | some (some (victim, str)) => (stringAt (memory.set str 0) (str + 1)).map (.whisperTo victim)

/-- `Whisper`, with what is left of a message after censoring; nothing if something outside of the memory is read or an
absent player is dereferenced. -/
def whisper (censor : List UInt8 → List UInt8) (clientId : Fin n) (memory : List UInt8) :
    Option (WhisperContext n × List (WhisperMessage n)) :=
  match this.readWhisper (strSkipWhitespaces memory) with
  | none => none
  | some .invalid => some (this, [.chatTarget clientId (ofChars "Invalid whisper".toList)])
  | some (.noPlayer name) =>
    some (this, [.chatTarget clientId (strCopy 256 (ofChars "No player with name \"".toList ++ name ++
      ofChars "\" found".toList))])
  | some (.whisperTo victim message) => this.whisperId clientId victim (censor message)

/-! ### Names in texts -/

/-- The text up to the next quote that is not escaped, without the escapes, and what follows the quote. -/
def unescape : List UInt8 → Option (List UInt8 × List UInt8)
  | [] => none
  | [c] => if c = quote then some ([], []) else none
  | c :: d :: text =>
    if c = quote then some ([], d :: text)
    else if c = backslash ∧ (d = backslash ∨ d = quote) then
      (unescape text).map fun (name, rest) => (d :: name, rest)
    else (unescape (d :: text)).map fun (name, rest) => (c :: name, rest)

lemma unescape_quote (text : List UInt8) : unescape (quote :: text) = some ([], text) := by
  cases text with
  | nil => rfl
  | cons d text => rw [unescape, if_pos rfl]

lemma unescape_escaped {d : UInt8} (hd : d = backslash ∨ d = quote) (text : List UInt8) :
    unescape (backslash :: d :: text) = (unescape text).map fun (name, rest) => (d :: name, rest) := by
  rw [unescape, if_neg (by decide), if_pos ⟨rfl, hd⟩]

lemma unescape_of_ne {c : UInt8} {text : List UInt8} (hquote : c ≠ quote)
    (hescape : c = backslash → text.head? ≠ some backslash ∧ text.head? ≠ some quote) :
    unescape (c :: text) = (unescape text).map fun (name, rest) => (c :: name, rest) := by
  cases text with
  | nil => simp [unescape, hquote]
  | cons d text =>
    rw [unescape, if_neg hquote, if_neg]
    rintro ⟨hc, hd | hd⟩
    · exact (hescape hc).1 (congrArg some hd)
    · exact (hescape hc).2 (congrArg some hd)

/-- An escaped name in quotes is read as the name. -/
theorem unescape_escape (name rest : List UInt8) : unescape (escape name ++ quote :: rest) = some (name, rest) := by
  induction name with
  | nil => exact unescape_quote rest
  | cons c name ih =>
    have hcons : escape (c :: name) = escapeChar c ++ escape name := rfl
    rw [hcons, escapeChar, List.append_assoc]
    split_ifs with hc
    · rw [List.cons_append, List.cons_append, List.nil_append, unescape_escaped hc.symm, ih]
      rfl
    · obtain ⟨hquote, hbackslash⟩ := not_or.1 hc
      rw [List.singleton_append, unescape_of_ne hquote fun h => absurd h hbackslash, ih]
      rfl

variable {this} {memory text : List UInt8} {str dst : ℕ}

lemma unescapeLoop_quote (h : memory[str]? = some quote) :
    unescapeLoop memory str dst = some (true, memory, str, dst) := by
  obtain ⟨hlt, heq⟩ := List.getElem?_eq_some_iff.1 h
  rw [unescapeLoop, dif_pos hlt, if_pos heq]

lemma unescapeLoop_zero (h : memory[str]? = some 0) : unescapeLoop memory str dst = some (false, memory, str, dst) := by
  obtain ⟨hlt, heq⟩ := List.getElem?_eq_some_iff.1 h
  rw [unescapeLoop, dif_pos hlt, heq, if_neg (by decide), if_pos rfl]

lemma unescapeLoop_step {c : UInt8} {str' : ℕ} (h : memory[str]? = some c) (hquote : c ≠ quote) (hzero : c ≠ 0)
    (hplace : escapePlace memory str = some str') :
    unescapeLoop memory str dst = unescapeLoop (memory.set dst (memory.getD str' 0)) (str' + 1) (dst + 1) := by
  obtain ⟨hlt, rfl⟩ := List.getElem?_eq_some_iff.1 h
  rw [unescapeLoop, dif_pos hlt, if_neg hquote, if_neg hzero]
  split
  · next hnone => simp [hnone] at hplace
  · next place hsome =>
    obtain rfl : place = str' := Option.some.inj (hsome.symm.trans hplace)
    rfl

/-- What the loop has to do with the rest of a text, of which it has written a part before the place where it reads. -/
def Unescapes (written gap text garbage : List UInt8) : Prop :=
  match unescape text with
  | none => ∃ result,
    unescapeLoop (written ++ (gap ++ (text ++ 0 :: garbage))) (written ++ gap).length written.length =
      some (false, result)
  | some (name, rest) => ∃ gap',
    unescapeLoop (written ++ (gap ++ (text ++ 0 :: garbage))) (written ++ gap).length written.length =
      some (true, written ++ (name ++ (gap' ++ quote :: (rest ++ 0 :: garbage))), (written ++ (name ++ gap')).length,
        (written ++ name).length)

/-- One round keeps the last of the characters that it goes past. -/
lemma unescapes_step {written gap front garbage : List UInt8} {c kept : UInt8}
    (hfirst : (front ++ [kept]).head? = some c) (hc : c ≠ quote ∧ c ≠ 0)
    (hplace : escapePlace (written ++ (gap ++ (front ++ kept :: (text ++ 0 :: garbage)))) (written ++ gap).length =
      some ((written ++ gap).length + front.length))
    (hunescape : unescape (front ++ kept :: text) =
      (unescape text).map fun (name, rest) => (kept :: name, rest))
    (ih : ∀ written gap : List UInt8, Unescapes written gap text garbage) :
    Unescapes written gap (front ++ kept :: text) garbage := by
  obtain ⟨g, gap', hgap⟩ : ∃ g gap', gap ++ (front ++ [kept]) = g :: gap' :=
    List.exists_cons_of_ne_nil (by simp)
  have hmemory : written ++ (gap ++ (front ++ kept :: (text ++ 0 :: garbage))) =
      written ++ g :: (gap' ++ (text ++ 0 :: garbage)) := by
    have htail := congrArg (· ++ (text ++ 0 :: garbage)) hgap
    simp only [List.append_assoc, List.cons_append, List.nil_append] at htail
    rw [htail]
  have hhead : (written ++ (gap ++ (front ++ kept :: (text ++ 0 :: garbage))))[(written ++ gap).length]? = some c := by
    rw [← List.append_assoc written, List.getElem?_append_right le_rfl, Nat.sub_self, ← List.head?_eq_getElem?]
    cases front with
    | nil => exact hfirst
    | cons b front => exact hfirst
  have hkept : (written ++ (gap ++ (front ++ kept :: (text ++ 0 :: garbage)))).getD
      ((written ++ gap).length + front.length) 0 = kept := by
    rw [← List.append_assoc written, ← List.append_assoc _ front, ← List.length_append,
      List.getD_append_right _ _ _ _ le_rfl, Nat.sub_self, List.getD_cons_zero]
  have hlength : gap.length + front.length = gap'.length := by
    have := congrArg List.length hgap
    simp only [List.length_append, List.length_cons, List.length_nil] at this
    omega
  have hstep : unescapeLoop (written ++ (gap ++ (front ++ kept :: (text ++ 0 :: garbage)))) (written ++ gap).length
      written.length =
      unescapeLoop ((written ++ [kept]) ++ (gap' ++ (text ++ 0 :: garbage))) ((written ++ [kept]) ++ gap').length
        (written ++ [kept]).length := by
    rw [unescapeLoop_step hhead hc.1 hc.2 hplace, hkept, hmemory, List.set_append_right _ _ le_rfl, Nat.sub_self,
      List.set_cons_zero]
    congr 1
    · simp
    · simp only [List.length_append, List.length_cons, List.length_nil]
      omega
    · simp
  have hrest := ih (written ++ [kept]) gap'
  rw [Unescapes] at hrest ⊢
  rw [hunescape]
  have hassoc : front ++ kept :: text ++ 0 :: garbage = front ++ kept :: (text ++ 0 :: garbage) := by simp
  cases htext : unescape text with
  | none =>
    rw [htext] at hrest
    dsimp only [Option.map_none] at hrest ⊢
    rw [hassoc, hstep]
    exact hrest
  | some result =>
    rw [htext] at hrest
    obtain ⟨gap₂, hrest⟩ := hrest
    refine ⟨gap₂, ?_⟩
    rw [hassoc, hstep, hrest]
    simp

lemma getElem?_length_append (l t : List UInt8) : (l ++ t)[l.length]? = t.head? := by
  rw [List.getElem?_append_right le_rfl, Nat.sub_self, List.head?_eq_getElem?]

lemma getElem?_succ_length_append (l t : List UInt8) (x : UInt8) : (l ++ x :: t)[l.length + 1]? = t.head? := by
  rw [List.getElem?_append_right (Nat.le_succ _), show l.length.succ - l.length = 1 by omega, List.getElem?_cons_succ,
    List.head?_eq_getElem?]

lemma unescapes_quote (written gap text garbage : List UInt8) : Unescapes written gap (quote :: text) garbage := by
  rw [Unescapes, unescape_quote]
  have hquote : (written ++ (gap ++ (quote :: text ++ 0 :: garbage)))[(written ++ gap).length]? = some quote := by
    rw [← List.append_assoc, getElem?_length_append]
    rfl
  refine ⟨gap, ?_⟩
  rw [unescapeLoop_quote hquote]
  simp

lemma unescapes_plain {c : UInt8} {garbage : List UInt8} (hc : c ≠ quote ∧ c ≠ 0)
    (hescape : c = backslash → text.head? ≠ some backslash ∧ text.head? ≠ some quote)
    (ih : ∀ written gap : List UInt8, Unescapes written gap text garbage) (written gap : List UInt8) :
    Unescapes written gap (c :: text) garbage := by
  refine @unescapes_step text written gap [] garbage c c rfl hc ?_ (unescape_of_ne hc.1 hescape) ih
  rw [escapePlace, ← List.append_assoc written, getElem?_length_append]
  split_ifs with hback
  · have hback' : c = backslash := Option.some.inj hback
    rw [List.nil_append, getElem?_succ_length_append]
    cases text with
    | nil => rfl
    | cons d text =>
      obtain ⟨hd, hd'⟩ := hescape hback'
      have hnot : ¬ (d = backslash ∨ d = quote) := fun h => h.elim (fun h => hd (congrArg some h))
        fun h => hd' (congrArg some h)
      rw [List.cons_append, List.head?_cons, Option.map_some, if_neg hnot]
      rfl
  · rfl

lemma unescapes_escaped {d : UInt8} {garbage : List UInt8} (hd : d = backslash ∨ d = quote)
    (ih : ∀ written gap : List UInt8, Unescapes written gap text garbage) (written gap : List UInt8) :
    Unescapes written gap (backslash :: d :: text) garbage := by
  refine @unescapes_step text written gap [backslash] garbage backslash d rfl ⟨by decide, by decide⟩ ?_
    (unescape_escaped hd text) ih
  rw [escapePlace, ← List.append_assoc written, getElem?_length_append, List.singleton_append, if_pos List.head?_cons,
    getElem?_succ_length_append, List.head?_cons, Option.map_some, if_pos hd]
  rfl

/-- The loop does what `unescape` does: it writes behind the place where it reads. -/
lemma unescapes (garbage : List UInt8) (htext : 0 ∉ text) (written gap : List UInt8) :
    Unescapes written gap text garbage := by
  have hcons : ∀ {c : UInt8} {t : List UInt8}, 0 ∉ c :: t → c ≠ 0 ∧ 0 ∉ t := fun h =>
    ⟨fun hc => h (hc ▸ List.mem_cons_self), fun ht => h (List.mem_cons_of_mem _ ht)⟩
  induction text using unescape.induct generalizing written gap with
  | case1 =>
    rw [Unescapes, unescape]
    refine ⟨_, unescapeLoop_zero ?_⟩
    rw [← List.append_assoc, getElem?_length_append]
    rfl
  | case2 => exact unescapes_quote written gap [] garbage
  | case3 c hc =>
    refine unescapes_plain ⟨hc, (hcons htext).1⟩ (fun _ => ⟨by simp, by simp⟩) (fun written gap => ?_) written gap
    rw [Unescapes, unescape]
    refine ⟨_, unescapeLoop_zero ?_⟩
    rw [← List.append_assoc, getElem?_length_append]
    rfl
  | case4 d text => exact unescapes_quote written gap (d :: text) garbage
  | case5 c d text hc hd ih =>
    obtain ⟨rfl, hd⟩ := hd
    exact unescapes_escaped hd (ih (hcons (hcons htext).2).2) written gap
  | case6 c d text hc hd ih =>
    refine unescapes_plain ⟨hc, (hcons htext).1⟩ (fun hback => ?_) (ih (hcons htext).2) written gap
    refine ⟨fun h => hd ⟨hback, .inl (Option.some.inj h)⟩, fun h => hd ⟨hback, .inr (Option.some.inj h)⟩⟩

/-! ### What is read from a text -/

lemma stringAt_append {l s garbage : List UInt8} (hs : 0 ∉ s) :
    stringAt (l ++ (s ++ 0 :: garbage)) l.length = some s := by
  rw [stringAt, List.drop_left, if_pos (List.mem_append_right s List.mem_cons_self), List.takeWhile_append_of_pos,
    List.takeWhile_cons_of_neg (by simp), List.append_nil]
  intro b hb
  simpa using ne_of_mem_of_not_mem hb hs

lemma unescape_subset {text name rest : List UInt8} (h : unescape text = some (name, rest)) :
    (∀ c ∈ name, c ∈ text) ∧ ∀ c ∈ rest, c ∈ text := by
  induction text using unescape.induct generalizing name with
  | case1 => exact absurd h.symm (Option.some_ne_none _)
  | case2 =>
    rw [unescape_quote] at h
    obtain ⟨rfl, rfl⟩ := Prod.mk.inj (Option.some.inj h)
    simp
  | case3 c hc =>
    rw [unescape, if_neg hc] at h
    exact absurd h.symm (Option.some_ne_none _)
  | case4 d text =>
    rw [unescape_quote] at h
    obtain ⟨rfl, rfl⟩ := Prod.mk.inj (Option.some.inj h)
    exact ⟨by simp, fun c hc => List.mem_cons_of_mem _ hc⟩
  | case5 c d text hc hd ih =>
    rw [unescape, if_neg hc, if_pos hd] at h
    obtain ⟨⟨name', rest'⟩, hrest, heq⟩ := Option.map_eq_some_iff.1 h
    obtain ⟨rfl, rfl⟩ := Prod.mk.inj heq
    obtain ⟨hname, hrest⟩ := ih hrest
    refine ⟨fun b hb => ?_, fun b hb => by simp [hrest b hb]⟩
    obtain rfl | hb := List.mem_cons.1 hb
    · simp
    · simp [hname b hb]
  | case6 c d text hc hd ih =>
    rw [unescape, if_neg hc, if_neg hd] at h
    obtain ⟨⟨name', rest'⟩, hrest, heq⟩ := Option.map_eq_some_iff.1 h
    obtain ⟨rfl, rfl⟩ := Prod.mk.inj heq
    obtain ⟨hname, hrest⟩ := ih hrest
    refine ⟨fun b hb => ?_, fun b hb => List.mem_cons_of_mem c (hrest b hb)⟩
    obtain rfl | hb := List.mem_cons.1 hb
    · exact List.mem_cons_self
    · exact List.mem_cons_of_mem c (hname b hb)

/-- What a name in quotes leads to. -/
lemma readWhisper_quote {body : List UInt8} (garbage : List UInt8) (hbody : 0 ∉ body) :
    this.readWhisper (quote :: (body ++ 0 :: garbage)) =
      match unescape body with
      | none => some .invalid
      | some (name, rest) =>
        match rest with
        | [] => some .invalid
        | c :: message =>
          if c ≠ space then some .invalid
          else
            match this.firstNamed name with
            | none => some (.noPlayer name)
            | some victim => some (.whisperTo victim message) := by
  have hloop := unescapes garbage hbody [quote] []
  rw [Unescapes] at hloop
  rw [readWhisper, if_pos List.head?_cons]
  cases hunescape : unescape body with
  | none =>
    rw [hunescape] at hloop
    obtain ⟨⟨memory, str, dst⟩, hloop⟩ := hloop
    simp only [List.singleton_append, List.nil_append, List.append_nil, List.length_singleton] at hloop
    rw [hloop]
  | some result =>
    obtain ⟨name, rest⟩ := result
    rw [hunescape] at hloop
    obtain ⟨gap, hloop⟩ := hloop
    simp only [List.singleton_append, List.nil_append, List.append_nil, List.length_singleton] at hloop
    rw [hloop]
    obtain ⟨hname, hrest⟩ := unescape_subset hunescape
    have hplaces : (quote :: name).length < (quote :: (name ++ gap)).length + 1 := by
      simp only [List.length_cons, List.length_append]
      omega
    have hsplit : quote :: (name ++ (gap ++ quote :: (rest ++ 0 :: garbage))) =
        (quote :: (name ++ gap)) ++ quote :: (rest ++ 0 :: garbage) := by simp
    have hstring : stringAt ((quote :: (name ++ (gap ++ quote :: (rest ++ 0 :: garbage)))).set (quote :: name).length 0)
        1 = some name := by
      obtain ⟨g, tail, htail⟩ : ∃ g tail, gap ++ quote :: (rest ++ 0 :: garbage) = g :: tail :=
        List.exists_cons_of_ne_nil (by simp)
      rw [htail, ← List.cons_append, List.set_append_right _ _ le_rfl, Nat.sub_self, List.set_cons_zero]
      exact stringAt_append (l := [quote]) fun h => hbody (hname 0 h)
    have hnext : ((quote :: (name ++ (gap ++ quote :: (rest ++ 0 :: garbage)))).set (quote :: name).length
        0)[(quote :: (name ++ gap)).length + 1]? = (rest ++ 0 :: garbage).head? := by
      rw [List.getElem?_set_ne hplaces.ne, hsplit, getElem?_succ_length_append]
    dsimp only
    rw [hstring, hnext]
    cases rest with
    | nil => rfl
    | cons c message =>
      have hcons : c :: message ++ 0 :: garbage = c :: (message ++ 0 :: garbage) := rfl
      rw [hcons] at hsplit ⊢
      have hmessage : stringAt (((quote :: (name ++ (gap ++ quote :: c :: (message ++ 0 :: garbage)))).set
          (quote :: name).length 0).set ((quote :: (name ++ gap)).length + 1) 0)
          ((quote :: (name ++ gap)).length + 2) = some message := by
        have hdrop : (((quote :: (name ++ (gap ++ quote :: c :: (message ++ 0 :: garbage)))).set
            (quote :: name).length 0).set ((quote :: (name ++ gap)).length + 1) 0).drop
            ((quote :: (name ++ gap)).length + 2) = message ++ 0 :: garbage := by
          rw [List.drop_set_of_lt (Nat.lt_succ_self _), List.drop_set_of_lt (by omega), hsplit]
          exact List.drop_length_add_append 2
        have hzero : 0 ∉ message := fun h => hbody (hrest 0 (List.mem_cons_of_mem c h))
        have hat := @stringAt_append [] message garbage hzero
        rw [List.nil_append, List.length_nil, stringAt, List.drop_zero] at hat
        rw [stringAt, hdrop]
        exact hat
      dsimp only [List.head?_cons]
      split_ifs
      · rfl
      · rw [hmessage]
        cases this.firstNamed name <;> rfl

/-- The loop for a name without quotes stops at the first space before which there is a name that a slot answers
with. -/
lemma plainLoop_spec (before : List UInt8) (garbage : List UInt8) (hzero : 0 ∉ before ++ text) :
    (∃ name message victim, before ++ text = name ++ space :: message ∧ before.length ≤ name.length ∧
      this.firstNamed name = some victim ∧
      (∀ name' message', before ++ text = name' ++ space :: message' → before.length ≤ name'.length →
        name'.length < name.length → this.firstNamed name' = none) ∧
      this.plainLoop (before ++ (text ++ 0 :: garbage)) before.length = some (some (victim, name.length))) ∨
    (∀ name message, before ++ text = name ++ space :: message → before.length ≤ name.length →
      this.firstNamed name = none) ∧
      this.plainLoop (before ++ (text ++ 0 :: garbage)) before.length = some none := by
  induction text generalizing before with
  | nil =>
    refine .inr ⟨fun name message hsplit hle => ?_, ?_⟩
    · have := congrArg List.length hsplit
      simp only [List.length_append, List.length_cons, List.length_nil] at this
      omega
    · rw [plainLoop, dif_pos (by simp), if_pos (by simp)]
  | cons c text ih =>
    have hnext := ih (before ++ [c]) (by simpa using hzero)
    have happend : before ++ [c] ++ text = before ++ c :: text := by simp
    have hmemory : before ++ [c] ++ (text ++ 0 :: garbage) = before ++ (c :: text ++ 0 :: garbage) := by simp
    have hlength : (before ++ [c]).length = before.length + 1 := by simp
    rw [happend, hmemory, hlength] at hnext
    have hlt : before.length < (before ++ (c :: text ++ 0 :: garbage)).length := by simp
    have hget : (before ++ (c :: text ++ 0 :: garbage))[before.length] = c := by simp
    have hc : c ≠ 0 := fun h => hzero (by simp [h])
    -- a split at this place is one at the place of the character
    have hhere : ∀ {name message : List UInt8}, before ++ c :: text = name ++ space :: message →
        before.length ≤ name.length → before.length + 1 ≤ name.length ∨ c = space ∧ name = before := by
      intro name message hsplit hle
      obtain hlt | heq := Nat.lt_or_eq_of_le hle
      · exact .inl hlt
      · obtain ⟨hname, hcons⟩ := List.append_inj hsplit heq
        exact .inr ⟨(List.cons.inj hcons).1, hname.symm⟩
    have hskip : (c = space → this.firstNamed before = none) →
        this.plainLoop (before ++ (c :: text ++ 0 :: garbage)) before.length =
          this.plainLoop (before ++ (c :: text ++ 0 :: garbage)) (before.length + 1) →
        (∃ name message victim, before ++ c :: text = name ++ space :: message ∧ before.length ≤ name.length ∧
          this.firstNamed name = some victim ∧
          (∀ name' message', before ++ c :: text = name' ++ space :: message' → before.length ≤ name'.length →
            name'.length < name.length → this.firstNamed name' = none) ∧
          this.plainLoop (before ++ (c :: text ++ 0 :: garbage)) before.length = some (some (victim, name.length))) ∨
        (∀ name message, before ++ c :: text = name ++ space :: message → before.length ≤ name.length →
          this.firstNamed name = none) ∧
          this.plainLoop (before ++ (c :: text ++ 0 :: garbage)) before.length = some none := by
      intro hnone hloop
      obtain ⟨name, message, victim, hsplit, hle, hvictim, hfirst, hrest⟩ | ⟨hall, hrest⟩ := hnext
      · refine .inl ⟨name, message, victim, hsplit, by omega, hvictim, fun name' message' hsplit' hle' hlt' => ?_,
          hloop.trans hrest⟩
        obtain hle' | ⟨hspace, rfl⟩ := hhere hsplit' hle'
        · exact hfirst name' message' hsplit' hle' hlt'
        · exact hnone hspace
      · refine .inr ⟨fun name message hsplit hle => ?_, hloop.trans hrest⟩
        obtain hle' | ⟨hspace, rfl⟩ := hhere hsplit hle
        · exact hall name message hsplit hle'
        · exact hnone hspace
    by_cases hspace : c = space
    · have hstring : stringAt ((before ++ (c :: text ++ 0 :: garbage)).set before.length 0) 0 = some before := by
        rw [List.set_append_right _ _ le_rfl, Nat.sub_self]
        exact stringAt_append (l := []) fun h => hzero (List.mem_append_left _ h)
      cases hnamed : this.firstNamed before with
      | none =>
        refine hskip (fun _ => hnamed) ?_
        rw [plainLoop, dif_pos hlt, hget, if_neg hc, if_pos hspace, hstring]
        dsimp only
        rw [hnamed]
      | some victim =>
        refine .inl ⟨before, text, victim, by rw [hspace], le_rfl, hnamed, fun _ _ _ hle hlt => ?_, ?_⟩
        · exact absurd hlt (Nat.not_lt.2 hle)
        · rw [plainLoop, dif_pos hlt, hget, if_neg hc, if_pos hspace, hstring]
          dsimp only
          rw [hnamed]
    · refine hskip (fun h => absurd h hspace) ?_
      rw [plainLoop, dif_pos hlt, hget, if_neg hc, if_neg hspace]

variable (this) in
/-- The text names the slot, in quotes or without: with the first name that a slot answers with. -/
def Names (text : List UInt8) (victim : Fin n) (message : List UInt8) : Prop :=
  (∃ body name, text = quote :: body ∧ unescape body = some (name, space :: message) ∧
    this.firstNamed name = some victim) ∨
  (text.head? ≠ some quote ∧ ∃ name, text = name ++ space :: message ∧ this.firstNamed name = some victim ∧
    ∀ name' message', text = name' ++ space :: message' → name'.length < name.length → this.firstNamed name' = none)

/-- Nothing outside of the text is read, and a whisper goes to the slot that the text names. -/
lemma readWhisper_spec (text garbage : List UInt8) (htext : 0 ∉ text) :
    ∃ outcome, this.readWhisper (text ++ 0 :: garbage) = some outcome ∧
      ∀ victim message, outcome = .whisperTo victim message ↔ this.Names text victim message := by
  by_cases hquote : text.head? = some quote
  · obtain ⟨body, rfl⟩ : ∃ body, text = quote :: body := by
      cases text with
      | nil => exact absurd hquote (by simp)
      | cons c body => exact ⟨body, by rw [Option.some.inj hquote]⟩
    have hbody : 0 ∉ body := fun h => htext (List.mem_cons_of_mem _ h)
    have hnames : ∀ victim message, this.Names (quote :: body) victim message ↔
        ∃ name, unescape body = some (name, space :: message) ∧ this.firstNamed name = some victim := by
      intro victim message
      rw [Names, or_iff_left fun h => h.1 hquote]
      constructor
      · rintro ⟨body', name, heq, hunescape, hvictim⟩
        exact ⟨name, (List.cons.inj heq).2 ▸ hunescape, hvictim⟩
      · rintro ⟨name, hunescape, hvictim⟩
        exact ⟨body, name, rfl, hunescape, hvictim⟩
    rw [List.cons_append, readWhisper_quote garbage hbody]
    have hno : ∀ outcome : WhisperOutcome n, (∀ victim message, outcome ≠ .whisperTo victim message) →
        (∀ victim message, ¬ this.Names (quote :: body) victim message) →
        ∃ outcome', some outcome = some outcome' ∧
          ∀ victim message, outcome' = .whisperTo victim message ↔ this.Names (quote :: body) victim message :=
      fun outcome hne hnot =>
        ⟨outcome, rfl, fun victim message => iff_of_false (hne victim message) (hnot victim message)⟩
    cases hunescape : unescape body with
    | none =>
      refine hno .invalid (fun _ _ h => WhisperOutcome.noConfusion rfl (heq_of_eq h)) fun victim message h => ?_
      obtain ⟨name, h, -⟩ := (hnames victim message).1 h
      rw [hunescape] at h
      exact Option.some_ne_none _ h.symm
    | some result =>
      obtain ⟨name, rest⟩ := result
      have hname : ∀ {name' message : List UInt8}, unescape body = some (name', space :: message) →
          name = name' ∧ rest = space :: message :=
        fun h => Prod.mk.inj (Option.some.inj (hunescape.symm.trans h))
      cases rest with
      | nil =>
        refine hno .invalid (fun _ _ h => WhisperOutcome.noConfusion rfl (heq_of_eq h)) fun victim message h => ?_
        obtain ⟨name', h, -⟩ := (hnames victim message).1 h
        exact List.cons_ne_nil _ _ (hname h).2.symm
      | cons c message =>
        dsimp only
        split_ifs with hc
        · refine hno .invalid (fun _ _ h => WhisperOutcome.noConfusion rfl (heq_of_eq h)) fun victim message' h => ?_
          obtain ⟨name', h, -⟩ := (hnames victim message').1 h
          exact hc (List.cons.inj (hname h).2).1
        · obtain rfl := not_not.1 hc
          cases hnamed : this.firstNamed name with
          | none =>
            refine hno (.noPlayer name) (fun _ _ h => WhisperOutcome.noConfusion rfl (heq_of_eq h)) ?_
            intro victim message' h
            obtain ⟨name', h, hvictim⟩ := (hnames victim message').1 h
            rw [← (hname h).1, hnamed] at hvictim
            exact Option.some_ne_none _ hvictim.symm
          | some victim =>
            refine ⟨.whisperTo victim message, rfl, fun victim' message' => ?_⟩
            rw [hnames, WhisperOutcome.whisperTo.injEq]
            constructor
            · rintro ⟨rfl, rfl⟩
              exact ⟨name, hunescape, hnamed⟩
            · rintro ⟨name', h, hvictim⟩
              obtain ⟨rfl, hrest⟩ := hname h
              exact ⟨Option.some.inj (hnamed.symm.trans hvictim), (List.cons.inj hrest).2⟩
  · rw [readWhisper, if_neg (by cases text with | nil => simp [quote] | cons c text => exact hquote)]
    have hnames : ∀ victim message, this.Names text victim message ↔
        ∃ name, text = name ++ space :: message ∧ this.firstNamed name = some victim ∧
          ∀ name' message', text = name' ++ space :: message' → name'.length < name.length →
            this.firstNamed name' = none := by
      intro victim message
      rw [Names, or_iff_right, and_iff_right hquote]
      rintro ⟨body, -, rfl, -⟩
      exact hquote rfl
    obtain ⟨name, message, victim, hsplit, -, hvictim, hfirst, hloop⟩ | ⟨hall, hloop⟩ :=
      @plainLoop_spec n this text [] garbage htext
    · rw [List.nil_append, List.length_nil] at hloop
      rw [List.nil_append] at hsplit
      have hzero : 0 ∉ message := fun h => htext (hsplit ▸ List.mem_append_right name (List.mem_cons_of_mem _ h))
      have hstring : stringAt ((text ++ 0 :: garbage).set name.length 0) (name.length + 1) = some message := by
        have hmemory : (text ++ 0 :: garbage).set name.length 0 = (name ++ [0]) ++ (message ++ 0 :: garbage) := by
          rw [hsplit, List.append_assoc, List.set_append_right _ _ le_rfl, Nat.sub_self]
          simp
        rw [hmemory, show name.length + 1 = (name ++ [0]).length by simp]
        exact stringAt_append hzero
      rw [hloop]
      dsimp only
      rw [hstring]
      refine ⟨.whisperTo victim message, rfl, fun victim' message' => ?_⟩
      rw [hnames, WhisperOutcome.whisperTo.injEq]
      constructor
      · rintro ⟨rfl, rfl⟩
        exact ⟨name, hsplit, hvictim, fun name' message' hsplit' => hfirst name' message' hsplit' (Nat.zero_le _)⟩
      · rintro ⟨name', hsplit', hvictim', hfirst'⟩
        have hlength : name.length = name'.length := by
          refine Nat.le_antisymm (Nat.le_of_not_lt fun hlt => ?_) (Nat.le_of_not_lt fun hlt => ?_)
          · rw [hfirst name' message' hsplit' (Nat.zero_le _) hlt] at hvictim'
            exact Option.some_ne_none _ hvictim'.symm
          · rw [hfirst' name message hsplit hlt] at hvictim
            exact Option.some_ne_none _ hvictim.symm
        obtain ⟨rfl, hcons⟩ := List.append_inj (hsplit.symm.trans hsplit') hlength
        exact ⟨Option.some.inj (hvictim.symm.trans hvictim'), (List.cons.inj hcons).2⟩
    · rw [List.nil_append, List.length_nil] at hloop
      rw [hloop]
      refine ⟨.invalid, rfl, fun victim message => iff_of_false ?_ fun h => ?_⟩
      · exact fun h => WhisperOutcome.noConfusion rfl (heq_of_eq h)
      obtain ⟨name, hsplit, hvictim, -⟩ := (hnames victim message).1 h
      rw [hall name message hsplit (Nat.zero_le _)] at hvictim
      exact Option.some_ne_none _ hvictim.symm

/-! ### Clients that come, go and whisper -/

/-- What happens to the slots, and what clients send; `spam` is the answer of `ProcessSpamProtection`. -/
inductive WhisperOp (n : ℕ)
  | connect (i : Fin n) (sixup : Bool) (version : ℤ)
  | ready (i : Fin n)
  | enter (i : Fin n)
  | redirect (i : Fin n)
  | drop (i : Fin n)
  | setName (i : Fin n) (name : List UInt8)
  | setWhispers (i : Fin n) (whispers : Bool)
  | changeMap
  | whisper (i : Fin n) (spam : Bool) (text : CStr) (garbage : List UInt8)
  | converse (i : Fin n) (spam : Bool) (message : List UInt8)
  | say7 (i : Fin n) (spam : Bool) (target : ℤ) (message : List UInt8)

/-- The other players forget the slot as the target of their conversation (`OnClientDrop`). -/
def forget (this : WhisperContext n) (i : Fin n) : WhisperContext n := fun j =>
  { this j with
    player := (this j).player.map fun player =>
      if player.lastWhisperTo = some i then { player with lastWhisperTo := none } else player }

/-- What a drop changes for the others; `OnClientDrop` is called for clients with players only. -/
def beforeDrop (this : WhisperContext n) (i : Fin n) : WhisperContext n :=
  if (this i).player.isSome then this.forget i else this

/-- `Converse`. -/
def converse (this : WhisperContext n) (i : Fin n) (censored : List UInt8) :
    Option (WhisperContext n × List (WhisperMessage n)) :=
  match (this i).player with
  | none => some (this, [])
  | some player =>
    match player.lastWhisperTo with
    | none => some (this, [.chatTarget i (ofChars
        "You do not have an ongoing conversation. Whisper to someone to start one".toList)])
    | some victim => this.whisperId i victim censored

/-- One event; nothing if an absent player is dereferenced or something outside of a text is read. -/
def whisperStep (censor : List UInt8 → List UInt8) (this : WhisperContext n) :
    WhisperOp n → Option (WhisperContext n × List (WhisperMessage n))
  | .connect i sixup version =>
    if (this i).state = .empty then
      some (Function.update this i ⟨.connecting, [], sixup, version, (this i).player⟩, [])
    else some (this, [])
  | .ready i =>
    if (this i).state = .connecting then
      some (Function.update this i { this i with player := some ⟨true, none⟩ }, [])
    else some (this, [])
  | .enter i =>
    if (this i).state = .connecting ∧ (this i).player.isSome then
      some (Function.update this i { this i with state := .ingame }, [])
    else some (this, [])
  | .redirect i =>
    if (this i).state = .ingame then some (Function.update this i { this i with state := .connecting }, [])
    else some (this, [])
  | .drop i =>
    some (Function.update (this.beforeDrop i) i
      { this.beforeDrop i i with state := .empty, name := [], player := none }, [])
  | .setName i name => some (Function.update this i { this i with name := name }, [])
  | .setWhispers i whispers => some (this.updatePlayer i fun player => { player with whispers := whispers }, [])
  | .changeMap =>
    some (fun i => { this i with
      state := if (this i).state = .empty then .empty else .connecting
      player := none }, [])
  | .whisper i spam text garbage =>
    if spam then some (this, []) else this.whisper censor i (text.bytes ++ 0 :: garbage)
  | .converse i spam message => if spam then some (this, []) else this.converse i (censor message)
  | .say7 i spam target message =>
    if !(this i).sixup || target < 0 || spam then some (this, [])
    else
      match slot target with
      | none => some (this, [])
      | some victim => this.whisperId i victim (censor message)

/-- The states that are reached from empty slots. -/
inductive Reaches (censor : List UInt8 → List UInt8) : WhisperContext n → Prop
  | init : Reaches censor fun _ => ⟨.empty, [], false, 0, none⟩
  | step {this this' : WhisperContext n} {op : WhisperOp n} {messages : List (WhisperMessage n)} :
    Reaches censor this → whisperStep censor this op = some (this', messages) → Reaches censor this'

/-- The name is in the text, in quotes or without, and the message follows behind a space. -/
def NameIn (text name message : List UInt8) : Prop :=
  (∃ body, text = quote :: body ∧ unescape body = some (name, space :: message)) ∨
  (text.head? ≠ some quote ∧ text = name ++ space :: message)

/-- Only the text is read; a whisper goes to an in-game player with a name in the text, and there is an error if no
in-game player has a name in the text. -/
def ReadsRight (this : WhisperContext n) (text : CStr) (garbage : List UInt8) : Prop :=
  ∃ outcome, this.readWhisper (strSkipWhitespaces (text.bytes ++ 0 :: garbage)) = some outcome ∧
    (∀ victim message, outcome = .whisperTo victim message →
      this.InGame victim ∧ NameIn (strSkipWhitespaces text.bytes) (this victim).name message) ∧
    ((∀ i message, this.InGame i → ¬ NameIn (strSkipWhitespaces text.bytes) (this i).name message) →
      outcome = .invalid ∨ ∃ name, outcome = .noPlayer name)

/-- What an event has to do. -/
def Delivers (censor : List UInt8 → List UInt8) (this : WhisperContext n) (op : WhisperOp n) : Prop :=
  (whisperStep censor this op).isSome = true ∧
    match op with
    | .whisper _ false text garbage => this.ReadsRight text garbage
    | _ => True

/-- The slot that a text names holds an in-game player, and the slot that a message of the other protocol gives holds a
player. -/
def Addressed (this : WhisperContext n) : WhisperOp n → Prop
  | .whisper _ false text _ => ∀ victim message, this.Names (strSkipWhitespaces text.bytes) victim message →
    this.InGame victim
  | .say7 i false target _ => (this i).sixup = true → ∀ victim, slot target = some victim →
    (this victim).player.isSome = true
  | _ => True

/-- Who is in game has a player, and so has the slot to which a player has whispered last. -/
structure Targets (this : WhisperContext n) : Prop where
  ingame : ∀ i, (this i).state = .ingame → (this i).player.isSome = true
  target : ∀ i player victim, (this i).player = some player → player.lastWhisperTo = some victim →
    (this victim).player.isSome = true

variable {censor : List UInt8 → List UInt8} {this' : WhisperContext n} {messages : List (WhisperMessage n)}
  {op : WhisperOp n} {i victim : Fin n}

/-! ### The targets of conversations -/

/-- No player is lost, and every target is an old one or a player. -/
lemma Targets.of_kept (h : Targets this)
    (hplayer : ∀ i, (this i).player.isSome = true → (this' i).player.isSome = true)
    (hingame : ∀ i, (this' i).state = .ingame → (this i).state = .ingame ∨ (this' i).player.isSome = true)
    (htarget : ∀ i player victim, (this' i).player = some player → player.lastWhisperTo = some victim →
      (∃ player', (this i).player = some player' ∧ player'.lastWhisperTo = some victim) ∨
        (this' victim).player.isSome = true) : Targets this' := by
  refine ⟨fun i hi => ?_, fun i player victim hi hvictim => ?_⟩
  · obtain hi | hi := hingame i hi
    · exact hplayer i (h.ingame i hi)
    · exact hi
  · obtain ⟨player', hi', hvictim'⟩ | hsome := htarget i player victim hi hvictim
    · exact hplayer victim (h.target i player' victim hi' hvictim')
    · exact hsome

lemma Targets.update {client : WhisperClient n} (h : Targets this)
    (hplayer : (this i).player.isSome = true → client.player.isSome = true)
    (hingame : client.state = .ingame → (this i).state = .ingame ∨ client.player.isSome = true)
    (htarget : ∀ player victim, client.player = some player → player.lastWhisperTo = some victim →
      (∃ player', (this i).player = some player' ∧ player'.lastWhisperTo = some victim) ∨
        (Function.update this i client victim).player.isSome = true) : Targets (Function.update this i client) := by
  refine h.of_kept (fun j hj => ?_) (fun j hj => ?_) fun j player victim hj hvictim => ?_
  · by_cases hji : j = i
    · subst hji
      rw [Function.update_self]
      exact hplayer hj
    · rw [Function.update_of_ne hji]
      exact hj
  · by_cases hji : j = i
    · subst hji
      rw [Function.update_self] at hj ⊢
      exact hingame hj
    · rw [Function.update_of_ne hji] at hj
      exact .inl hj
  · by_cases hji : j = i
    · subst hji
      rw [Function.update_self] at hj
      exact htarget player victim hj hvictim
    · rw [Function.update_of_ne hji] at hj
      exact .inl ⟨player, hj, hvictim⟩

lemma isSome_updatePlayer (f : WhisperPlayer n → WhisperPlayer n) (j : Fin n) :
    (this.updatePlayer i f j).player.isSome = (this j).player.isSome := by
  rw [updatePlayer]
  by_cases hj : j = i
  · subst hj
    rw [Function.update_self, Option.isSome_map]
  · rw [Function.update_of_ne hj]

lemma whisperId_isSome_iff {text : List UInt8} :
    (this.whisperId i victim text).isSome = true ↔ (this victim).player.isSome = true := by
  rw [← @isSome_updatePlayer n this i (fun player => { player with lastWhisperTo := some victim }),
    whisperId]
  cases (this.updatePlayer i (fun player => { player with lastWhisperTo := some victim }) victim).player with
  | none => simp
  | some player => by_cases hwhispers : player.whispers <;> simp [hwhispers]

lemma Targets.whisperId {text : List UInt8} (h : Targets this)
    (hstep : this.whisperId i victim text = some (this', messages)) : Targets this' := by
  have hvictim : (this victim).player.isSome = true :=
    whisperId_isSome_iff.1 (hstep ▸ rfl : (this.whisperId i victim text).isSome = true)
  have heq : this' = this.updatePlayer i fun player => { player with lastWhisperTo := some victim } := by
    rw [WhisperContext.whisperId] at hstep
    split at hstep
    · exact absurd hstep.symm (Option.some_ne_none _)
    · split_ifs at hstep
      · exact (Prod.mk.inj (Option.some.inj hstep)).1.symm
      · exact (Prod.mk.inj (Option.some.inj hstep)).1.symm
  rw [heq]
  refine h.update (fun hi => ?_) (fun hi => .inl hi) fun player victim' hplayer htarget => ?_
  · rw [Option.isSome_map]
    exact hi
  · obtain ⟨player', -, rfl⟩ := Option.map_eq_some_iff.1 hplayer
    obtain rfl : victim = victim' := Option.some.inj htarget
    exact .inr ((isSome_updatePlayer _ victim).trans hvictim)

/-- After the others have forgotten the slot, nobody has it as a target. -/
lemma target_forget {player : WhisperPlayer n} {j : Fin n} (hplayer : (this.forget i j).player = some player)
    (htarget : player.lastWhisperTo = some victim) :
    victim ≠ i ∧ ∃ player', (this j).player = some player' ∧ player'.lastWhisperTo = some victim := by
  obtain ⟨player', hplayer', rfl⟩ := Option.map_eq_some_iff.1 hplayer
  by_cases hi : player'.lastWhisperTo = some i
  · rw [if_pos hi] at htarget
    exact absurd htarget.symm (Option.some_ne_none _)
  · rw [if_neg hi] at htarget
    exact ⟨fun h => hi (h ▸ htarget), player', hplayer', htarget⟩

lemma isSome_forget (j : Fin n) : (this.forget i j).player.isSome = (this j).player.isSome := Option.isSome_map

lemma Targets.drop (h : Targets this) (i : Fin n) : Targets (Function.update (this.beforeDrop i) i
    { this.beforeDrop i i with state := .empty, name := [], player := none }) := by
  have hsome : ∀ j, (this.beforeDrop i j).player.isSome = (this j).player.isSome := by
    intro j
    rw [beforeDrop]
    split_ifs
    · exact isSome_forget j
    · rfl
  have hstate : ∀ j, (this.beforeDrop i j).state = (this j).state := by
    intro j
    rw [beforeDrop]
    split_ifs <;> rfl
  have htarget : ∀ j player victim, (this.beforeDrop i j).player = some player → player.lastWhisperTo = some victim →
      victim ≠ i ∧ (this victim).player.isSome = true := by
    intro j player victim hplayer hvictim
    rw [beforeDrop] at hplayer
    split_ifs at hplayer with hi
    · obtain ⟨hne, player', hplayer', hvictim'⟩ := target_forget hplayer hvictim
      exact ⟨hne, h.target j player' victim hplayer' hvictim'⟩
    · have hvictim' := h.target j player victim hplayer hvictim
      exact ⟨fun heq => hi (heq ▸ hvictim'), hvictim'⟩
  refine ⟨fun j hj => ?_, fun j player victim hplayer hvictim => ?_⟩
  · by_cases hji : j = i
    · rw [hji, Function.update_self] at hj
      exact NameState.noConfusion hj
    · rw [Function.update_of_ne hji] at hj ⊢
      rw [hsome]
      exact h.ingame j ((hstate j).symm.trans hj)
  · by_cases hji : j = i
    · rw [hji, Function.update_self] at hplayer
      exact absurd hplayer.symm (Option.some_ne_none _)
    · rw [Function.update_of_ne hji] at hplayer
      obtain ⟨hne, hvictim'⟩ := htarget j player victim hplayer hvictim
      rw [Function.update_of_ne hne, hsome]
      exact hvictim'

lemma Targets.step (h : Targets this) (hstep : whisperStep censor this op = some (this', messages)) :
    Targets this' := by
  have hself : ∀ {m : List (WhisperMessage n)}, some (this, m) = some (this', messages) → Targets this' :=
    fun heq => (Prod.mk.inj (Option.some.inj heq)).1 ▸ h
  have hnext : ∀ {next : WhisperContext n} {m : List (WhisperMessage n)},
      some (next, m) = some (this', messages) → next = this' :=
    fun heq => (Prod.mk.inj (Option.some.inj heq)).1
  have hold : ∀ {i victim : Fin n} {player : WhisperPlayer n}, (this i).player = some player →
      player.lastWhisperTo = some victim →
      ∃ player', (this i).player = some player' ∧ player'.lastWhisperTo = some victim :=
    fun hplayer hvictim => ⟨_, hplayer, hvictim⟩
  cases op with
  | connect i sixup version =>
    rw [whisperStep] at hstep
    split_ifs at hstep
    · obtain rfl := hnext hstep
      refine h.update (fun hi => hi) (fun hi => NameState.noConfusion hi) ?_
      exact fun player victim hplayer hvictim => .inl (hold hplayer hvictim)
    · exact hself hstep
  | ready i =>
    rw [whisperStep] at hstep
    split_ifs at hstep
    · obtain rfl := hnext hstep
      refine h.update (fun _ => rfl) (fun hi => .inl hi) fun player victim hplayer hvictim => ?_
      obtain rfl := Option.some.inj hplayer
      exact absurd hvictim.symm (Option.some_ne_none _)
    · exact hself hstep
  | enter i =>
    rw [whisperStep] at hstep
    split_ifs at hstep with henter
    · obtain rfl := hnext hstep
      refine h.update (fun hi => hi) (fun _ => .inr henter.2) ?_
      exact fun player victim hplayer hvictim => .inl (hold hplayer hvictim)
    · exact hself hstep
  | redirect i =>
    rw [whisperStep] at hstep
    split_ifs at hstep
    · obtain rfl := hnext hstep
      refine h.update (fun hi => hi) (fun hi => NameState.noConfusion hi) ?_
      exact fun player victim hplayer hvictim => .inl (hold hplayer hvictim)
    · exact hself hstep
  | drop i =>
    obtain rfl := hnext hstep
    exact h.drop i
  | setName i name =>
    obtain rfl := hnext hstep
    refine h.update (fun hi => hi) (fun hi => .inl hi) ?_
    exact fun player victim hplayer hvictim => .inl (hold hplayer hvictim)
  | setWhispers i whispers =>
    obtain rfl := hnext hstep
    refine h.update (fun hi => ?_) (fun hi => .inl hi) fun player victim hplayer hvictim => ?_
    · rw [Option.isSome_map]
      exact hi
    · obtain ⟨player', hplayer', rfl⟩ := Option.map_eq_some_iff.1 hplayer
      exact .inl ⟨player', hplayer', hvictim⟩
  | changeMap =>
    obtain rfl := hnext hstep
    refine ⟨fun i hi => ?_, fun i player victim hplayer _ => ?_⟩
    · dsimp only at hi
      split_ifs at hi
    · exact absurd hplayer.symm (Option.some_ne_none _)
  | whisper i spam text garbage =>
    rw [whisperStep] at hstep
    split_ifs at hstep
    · exact hself hstep
    · rw [whisper] at hstep
      split at hstep
      · exact absurd hstep.symm (Option.some_ne_none _)
      · exact hself hstep
      · exact hself hstep
      · exact h.whisperId hstep
  | converse i spam message =>
    rw [whisperStep] at hstep
    split_ifs at hstep
    · exact hself hstep
    · rw [converse] at hstep
      split at hstep
      · exact hself hstep
      · split at hstep
        · exact hself hstep
        · exact h.whisperId hstep
  | say7 i spam target message =>
    rw [whisperStep] at hstep
    split_ifs at hstep
    · exact hself hstep
    · split at hstep
      · exact hself hstep
      · exact h.whisperId hstep

lemma Reaches.targets (h : Reaches censor this) : Targets this := by
  induction h with
  | init => exact ⟨fun i hi => NameState.noConfusion hi, fun i player victim hplayer _ =>
      absurd hplayer.symm (Option.some_ne_none _)⟩
  | step _ hstep ih => exact ih.step hstep

/-! ### What is delivered -/

lemma strSkipWhitespaces_append (text garbage : List UInt8) :
    strSkipWhitespaces (text ++ 0 :: garbage) = strSkipWhitespaces text ++ 0 :: garbage := by
  rw [strSkipWhitespaces, List.dropWhile_append]
  split_ifs with hempty
  · rw [strSkipWhitespaces, List.isEmpty_iff.1 hempty]
    rfl
  · rfl

lemma readWhisper_skip (this : WhisperContext n) (text : CStr) (garbage : List UInt8) :
    ∃ outcome, this.readWhisper (strSkipWhitespaces (text.bytes ++ 0 :: garbage)) = some outcome ∧
      ∀ victim message, outcome = .whisperTo victim message ↔
        this.Names (strSkipWhitespaces text.bytes) victim message := by
  rw [strSkipWhitespaces_append]
  refine readWhisper_spec _ garbage fun hzero => ?_
  exact text.nonzero 0 ((List.dropWhile_suffix _).subset hzero) rfl

lemma clientName_of_firstNamed {name : List UInt8} (h : this.firstNamed name = some victim) :
    this.clientName victim = name := by
  simpa using List.find?_some h

/-- A named in-game player has the name in the text. -/
lemma nameIn_of_names {text message : List UInt8} (h : this.Names text victim message)
    (hingame : this.InGame victim) : NameIn text (this victim).name message := by
  have hname : ∀ {name : List UInt8}, this.firstNamed name = some victim → name = (this victim).name := by
    intro name hfirst
    rw [← clientName_of_firstNamed hfirst, clientName, hingame.1]
  obtain ⟨body, name, htext, hunescape, hfirst⟩ | ⟨hquote, name, htext, hfirst, -⟩ := h
  · exact .inl ⟨body, htext, hname hfirst ▸ hunescape⟩
  · exact .inr ⟨hquote, hname hfirst ▸ htext⟩

/-- A text is read right if and only if it does not name a slot without an in-game player. -/
lemma readsRight_iff (this : WhisperContext n) (text : CStr) (garbage : List UInt8) :
    this.ReadsRight text garbage ↔
      ∀ victim message, this.Names (strSkipWhitespaces text.bytes) victim message → this.InGame victim := by
  obtain ⟨outcome, hread, houtcome⟩ := readWhisper_skip this text garbage
  constructor
  · rintro ⟨outcome', hread', hright, -⟩ victim message hnames
    obtain rfl : outcome = outcome' := Option.some.inj (hread.symm.trans hread')
    exact (hright victim message ((houtcome victim message).2 hnames)).1
  · intro h
    have hright : ∀ victim message, outcome = .whisperTo victim message →
        this.InGame victim ∧ NameIn (strSkipWhitespaces text.bytes) (this victim).name message := by
      intro victim message heq
      have hnames := (houtcome victim message).1 heq
      exact ⟨h victim message hnames, nameIn_of_names hnames (h victim message hnames)⟩
    refine ⟨outcome, hread, hright, fun hnone => ?_⟩
    cases outcome with
    | invalid => exact .inl rfl
    | noPlayer name => exact .inr ⟨name, rfl⟩
    | whisperTo victim message =>
      obtain ⟨hingame, hname⟩ := hright victim message rfl
      exact absurd hname (hnone victim message hingame)

lemma whisper_isSome {text : CStr} {garbage : List UInt8} (h : this.ReadsRight text garbage) :
    (this.whisper censor i (text.bytes ++ 0 :: garbage)).isSome = true := by
  obtain ⟨outcome, hread, hright, -⟩ := h
  rw [whisper, hread]
  cases outcome with
  | invalid => rfl
  | noPlayer name => rfl
  | whisperTo victim message => exact whisperId_isSome_iff.2 (hright victim message rfl).1.2

/-- Conversations go on with players only. -/
lemma converse_isSome {text : List UInt8} (h : Targets this) : (this.converse i text).isSome = true := by
  rw [converse]
  split
  · rfl
  · next player hplayer =>
    split
    · rfl
    · next victim htarget => exact whisperId_isSome_iff.2 (h.target i player victim hplayer htarget)

lemma say7_isSome_iff {spam : Bool} {target : ℤ} {message : List UInt8} :
    (whisperStep censor this (.say7 i spam target message)).isSome = true ↔
      this.Addressed (.say7 i spam target message) := by
  rw [whisperStep]
  cases spam with
  | true => simp [Addressed]
  | false =>
    rw [Addressed]
    by_cases hsixup : (this i).sixup = true
    · by_cases htarget : target < 0
      · rw [if_pos (by simp [htarget])]
        refine iff_of_true rfl fun _ victim hslot => ?_
        rw [slot, dif_neg fun h => absurd h.1 (not_le.2 htarget)] at hslot
        exact absurd hslot.symm (Option.some_ne_none _)
      · rw [if_neg (by simp [hsixup, htarget])]
        cases hslot : slot (n := n) target with
        | none => exact iff_of_true rfl fun _ victim h => absurd h.symm (Option.some_ne_none _)
        | some victim =>
          dsimp only
          rw [whisperId_isSome_iff]
          constructor
          · exact fun hvictim _ victim' h => Option.some.inj h ▸ hvictim
          · exact fun h => h hsixup victim rfl
    · rw [if_pos (by simp [hsixup])]
      exact iff_of_true rfl fun h => absurd h hsixup

end WhisperContext

end CGameContext

open CGameContext WhisperContext in
/-- Whenever clients have come, gone and whispered, an event does what it has to do if and only if it does not name a
slot without an in-game player, or give the id of a slot without a player. -/
theorem whisper_iff {n : ℕ} {censor : List UInt8 → List UInt8} {this : WhisperContext n} (h : Reaches censor this)
    (op : WhisperOp n) : Delivers censor this op ↔ Addressed this op := by
  cases op with
  | whisper i spam text garbage =>
    cases spam with
    | true => exact iff_of_true ⟨rfl, trivial⟩ trivial
    | false =>
      refine Iff.trans ?_ (readsRight_iff this text garbage)
      exact ⟨fun hdelivers => hdelivers.2, fun hright => ⟨whisper_isSome hright, hright⟩⟩
  | converse i spam message =>
    refine iff_of_true ⟨?_, trivial⟩ trivial
    rw [whisperStep]
    split_ifs
    · rfl
    · exact converse_isSome h.targets
  | say7 i spam target message => exact (and_iff_left trivial).trans say7_isSome_iff
  | connect i sixup version =>
    refine iff_of_true ⟨?_, trivial⟩ trivial
    rw [whisperStep]
    split_ifs <;> rfl
  | ready i =>
    refine iff_of_true ⟨?_, trivial⟩ trivial
    rw [whisperStep]
    split_ifs <;> rfl
  | enter i =>
    refine iff_of_true ⟨?_, trivial⟩ trivial
    rw [whisperStep]
    split_ifs <;> rfl
  | redirect i =>
    refine iff_of_true ⟨?_, trivial⟩ trivial
    rw [whisperStep]
    split_ifs <;> rfl
  | drop i => exact iff_of_true ⟨rfl, trivial⟩ trivial
  | setName i name => exact iff_of_true ⟨rfl, trivial⟩ trivial
  | setWhispers i whispers => exact iff_of_true ⟨rfl, trivial⟩ trivial
  | changeMap => exact iff_of_true ⟨rfl, trivial⟩ trivial

open CGameContext WhisperContext in
theorem whisper_iff_init :
    Delivers id (fun _ : Fin 2 => ⟨.empty, [], false, 0, none⟩) (.whisper 0 false ⟨[40, 41, 32], by simp⟩ []) ↔
      Addressed (fun _ : Fin 2 => ⟨.empty, [], false, 0, none⟩) (.whisper 0 false ⟨[40, 41, 32], by simp⟩ []) :=
  whisper_iff .init (.whisper 0 false ⟨[40, 41, 32], by simp⟩ [])

open CGameContext WhisperContext in
/-- An in-game player with the other protocol whispers to the id of an empty slot. -/
theorem whisper_empty_slot :
    ¬ (∀ (n : ℕ) (censor : List UInt8 → List UInt8) (this : WhisperContext n), Reaches censor this →
      ∀ op, Delivers censor this op) := by
  intro h
  let empty : WhisperContext 2 := fun _ => ⟨.empty, [], false, 0, none⟩
  have hreaches : ∃ this : WhisperContext 2, Reaches id this ∧ (this 0).state = .ingame ∧ (this 0).sixup = true ∧
      (this 1).player = none := by
    have hconnect : whisperStep id empty (.connect 0 true 0) = some (_, []) := rfl
    have hready := @Reaches.step _ _ _ _ (.ready 0) _ (.step .init hconnect) rfl
    have henter := @Reaches.step _ _ _ _ (.enter 0) _ hready rfl
    exact ⟨_, henter, rfl, rfl, rfl⟩
  obtain ⟨this, hthis, -, hsixup, hnone⟩ := hreaches
  have hsome := (say7_isSome_iff.1 (h 2 id this hthis (.say7 0 false 1 [104])).1) hsixup 1 rfl
  rw [hnone] at hsome
  exact Bool.false_ne_true hsome

end DDNet
