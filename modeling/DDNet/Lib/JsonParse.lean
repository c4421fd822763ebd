/-
A parser of JSON texts, as lists of bytes in UTF-8.

A number is a mantissa and an exponent of ten, a string is the bytes of its characters, and the members of an object are
in the order of the text.  `Parses f t` says that the layout `f` is read as the value `t`, whatever follows it; the
layouts of objects and arrays have a rule for it (`parses_object`, `parses_array`).
-/
import DDNet.Lib.Json
import Mathlib.Data.List.Forall2
import Mathlib.Data.List.TakeWhile

namespace DDNet.Lib.Json

/-- A value. -/
inductive Value
  | null
  | bool (b : Bool)
  | number (mantissa exponent : ℤ)
  | string (str : List UInt8)
  | array (elements : List Value)
  | object (members : List (List UInt8 × Value))

/-! ### The parser -/

/-- What a parser reads, and the bytes behind it. -/
abbrev Parser (α : Type) := List UInt8 → Option (α × List UInt8)

/-- Insignificant whitespace. -/
def isWs (c : UInt8) : Bool := c = 32 || c = 9 || c = 10 || c = 13

def skipWs (s : List UInt8) : List UInt8 := s.dropWhile isWs

/-- A byte of a string, or the number behind `\u`. -/
inductive CodeUnit
  | byte (b : UInt8)
  | escape (n : ℕ)

def hexValue (c : UInt8) : Option ℕ :=
  if 48 ≤ c ∧ c ≤ 57 then some (c.toNat - 48)
  else if 65 ≤ c ∧ c ≤ 70 then some (c.toNat - 55)
  else if 97 ≤ c ∧ c ≤ 102 then some (c.toNat - 87)
  else none

def hexValues : List UInt8 → Option ℕ :=
  List.foldlM (fun n c => (hexValue c).map fun d => 16 * n + d) 0

/-- The escapes of one character. -/
def escapeValue (c : UInt8) : Option UInt8 :=
  if c = 34 ∨ c = 92 ∨ c = 47 then some c
  else if c = 98 then some 8
  else if c = 102 then some 12
  else if c = 110 then some 10
  else if c = 114 then some 13
  else if c = 116 then some 9
  else none

/-- The characters up to the closing quote. -/
def parseUnits : Parser (List CodeUnit)
  | [] => none
  | c :: s =>
    if c = 34 then some ([], s)
    else if c = 92 then
      match s with
      | [] => none
      | e :: s =>
        if e = 117 then
          match s with
          | a :: b :: c :: d :: s =>
            (hexValues [a, b, c, d]).bind fun n => (parseUnits s).map fun (units, s) => (.escape n :: units, s)
          | _ => none
        else (escapeValue e).bind fun b => (parseUnits s).map fun (units, s) => (.byte b :: units, s)
    else if c < 32 then none
    else (parseUnits s).map fun (units, s) => (.byte c :: units, s)

/-- The bytes of a string; a surrogate is only a character together with its other half. -/
def decodeUnits : List CodeUnit → Option (List UInt8)
  | [] => some []
  | .byte b :: units => (decodeUnits units).map (b :: ·)
  | .escape n :: units =>
    if 0xD800 ≤ n ∧ n < 0xDC00 then
      match units with
      | .escape m :: units =>
        if 0xDC00 ≤ m ∧ m < 0xE000 then
          (decodeUnits units).map
            (String.utf8EncodeChar (Char.ofNat (0x10000 + (n - 0xD800) * 0x400 + (m - 0xDC00))) ++ ·)
        else none
      | _ => none
    else if 0xDC00 ≤ n ∧ n < 0xE000 then none
    else (decodeUnits units).map (String.utf8EncodeChar (Char.ofNat n) ++ ·)

/-- A string, behind its opening quote. -/
def parseString : Parser (List UInt8) := fun s =>
  (parseUnits s).bind fun (units, s) => (decodeUnits units).map fun str => (str, s)

def isDigit (c : UInt8) : Bool := 48 ≤ c && c ≤ 57

/-- The number with these digits. -/
def digitsValue (s : List UInt8) : ℕ := s.foldl (fun n c => 10 * n + (c.toNat - 48)) 0

/-- At least one digit. -/
def parseDigits : Parser (List UInt8) := fun s =>
  if s.takeWhile isDigit = [] then none else some (s.takeWhile isDigit, s.dropWhile isDigit)

/-- A point and digits, if there is one. -/
def parseFraction : Parser (List UInt8) := fun s =>
  if s.head? = some 46 then parseDigits s.tail else some ([], s)

/-- The exponent, if there is one. -/
def parseExponent : Parser ℤ := fun s =>
  if s.head? = some 69 ∨ s.head? = some 101 then
    let sign : ℤ := if s.tail.head? = some 45 then -1 else 1
    let digits := if s.tail.head? = some 45 ∨ s.tail.head? = some 43 then s.tail.tail else s.tail
    (parseDigits digits).map fun (digits, s) => (sign * digitsValue digits, s)
  else some (0, s)

def parseNumber : Parser Value := fun s => do
  let sign : ℤ := if s.head? = some 45 then -1 else 1
  let (int, s) ← parseDigits (if s.head? = some 45 then s.tail else s)
  if int.head? = some 48 ∧ int.length ≠ 1 then none
  let (fraction, s) ← parseFraction s
  let (exponent, s) ← parseExponent s
  return (.number (sign * digitsValue (int ++ fraction)) (exponent - fraction.length), s)

/-- A literal, behind its first letter. -/
def parseLiteral (text : List UInt8) (value : Value) : Parser Value := fun s =>
  if text <+: s then some (value, s.drop text.length) else none

variable {α : Type}

/-- Items with commas between them, up to the closing bracket; the number bounds the number of items. -/
def parseItems (item : Parser α) (close : UInt8) : ℕ → Parser (List α)
  | 0, _ => none
  | fuel + 1, s =>
    (item (skipWs s)).bind fun (a, s) =>
      match skipWs s with
      | [] => none
      | c :: s =>
        if c = 44 then (parseItems item close fuel s).map fun (items, s) => (a :: items, s)
        else if c = close then some ([a], s)
        else none

/-- Items between brackets, behind the opening one. -/
def parseBlock (item : Parser α) (close : UInt8) (fuel : ℕ) : Parser (List α) := fun s =>
  match skipWs s with
  | [] => none
  | c :: s' => if c = close then some ([], s') else parseItems item close fuel s

/-- A name with its value. -/
def parseMember (value : Parser α) : Parser (List UInt8 × α)
  | [] => none
  | c :: s =>
    if c = 34 then
      (parseString s).bind fun (name, s) =>
        match skipWs s with
        | [] => none
        | c :: s => if c = 58 then (value (skipWs s)).map fun (v, s) => ((name, v), s) else none
    else none

/-- A value; the number bounds the nesting. -/
def parseValue : ℕ → Parser Value
  | 0, _ => none
  | _ + 1, [] => none
  | fuel + 1, c :: s =>
    if c = 34 then (parseString s).map fun (str, s) => (.string str, s)
    else if c = 91 then (parseBlock (parseValue fuel) 93 fuel s).map fun (l, s) => (.array l, s)
    else if c = 123 then (parseBlock (parseMember (parseValue fuel)) 125 fuel s).map fun (l, s) => (.object l, s)
    else if c = 110 then parseLiteral [117, 108, 108] .null s
    else if c = 116 then parseLiteral [114, 117, 101] (.bool true) s
    else if c = 102 then parseLiteral [97, 108, 115, 101] (.bool false) s
    else parseNumber (c :: s)

/-- A text: a value with whitespace around it. -/
def parse (s : List UInt8) : Option Value :=
  (parseValue (s.length + 1) (skipWs s)).bind fun (value, s) => if skipWs s = [] then some value else none

/-! ### Items -/

/-- The start of an item: no whitespace, and no closing bracket. -/
def Starts (s : List UInt8) : Prop := ∃ c s', s = c :: s' ∧ isWs c = false ∧ c ≠ 93 ∧ c ≠ 125

/-- What may follow a number. -/
def Follows (s : List UInt8) : Prop := ∀ c ∈ s.head?, isDigit c = false ∧ c ≠ 46 ∧ c ≠ 69 ∧ c ≠ 101

variable {item : Parser α} {close : UInt8} {n m fuel : ℕ} {s rest : List UInt8}

lemma skipWs_append_cons {w : List UInt8} (hw : ∀ c ∈ w, isWs c = true) {c : UInt8} (hc : isWs c = false) :
    skipWs (w ++ c :: s) = c :: s := by
  rw [skipWs, List.dropWhile_append_of_pos hw, List.dropWhile_cons_of_neg (by rw [hc]; exact Bool.false_ne_true)]

lemma isWs_of_mem_line {c : UInt8} (hc : c ∈ line n) : isWs c = true := by
  rcases List.mem_cons.1 hc with rfl | hc
  · rfl
  · rw [List.eq_of_mem_replicate hc]
    rfl

lemma skipWs_line_cons {c : UInt8} (hc : isWs c = false) : skipWs (line n ++ c :: s) = c :: s :=
  skipWs_append_cons (fun _ => isWs_of_mem_line) hc

lemma Starts.skipWs_line (hs : Starts s) : skipWs (line n ++ (s ++ rest)) = s ++ rest := by
  obtain ⟨c, s', rfl, hc, -⟩ := hs
  exact skipWs_line_cons hc

lemma skipWs_cons {c : UInt8} (hc : isWs c = false) : skipWs (c :: s) = c :: s :=
  skipWs_append_cons (w := []) (by simp) hc

/-- The parser of the items reads the fragment as `a`. -/
structure ReadsItem (item : Parser α) (n : ℕ) (f : Fragment) (a : α) : Prop where
  starts : Starts (f n)
  item_eq : ∀ rest, Follows rest → item (f n ++ rest) = some (a, rest)

lemma isWs_close (hclose : close = 93 ∨ close = 125) : isWs close = false := by
  obtain rfl | rfl := hclose <;> rfl

lemma items_cons_cons (f g : Fragment) (l : List Fragment) :
    items n true (f :: g :: l) = line n ++ (f n ++ 44 :: items n true (g :: l)) := by
  simp [items]

/-- Items on lines of their own are read in their order. -/
lemma parseItems_items (hclose : close = 93 ∨ close = 125) {l : List (Fragment × α)}
    (hl : ∀ p ∈ l, ReadsItem item n p.1 p.2) (hne : l ≠ []) (hfuel : l.length ≤ fuel) :
    parseItems item close fuel (items n true (l.map Prod.fst) ++ (line m ++ close :: rest)) =
      some (l.map Prod.snd, rest) := by
  induction l generalizing fuel with
  | nil => exact absurd rfl hne
  | cons p l ih =>
    obtain ⟨fuel, rfl⟩ := Nat.exists_eq_add_one_of_ne_zero (Nat.ne_of_gt (Nat.lt_of_lt_of_le (Nat.succ_pos _) hfuel))
    have hp := hl p List.mem_cons_self
    cases l with
    | nil =>
      have hfollows : Follows (line m ++ close :: rest) := by
        intro c hc
        obtain rfl : (10 : UInt8) = c := Option.some.inj hc
        decide
      simp only [List.map_cons, List.map_nil, items, if_true, List.nil_append, List.append_nil, List.append_assoc]
      rw [parseItems, hp.starts.skipWs_line, hp.item_eq _ hfollows, Option.bind_some]
      dsimp only
      rw [skipWs_line_cons (isWs_close hclose)]
      obtain rfl | rfl := hclose <;> rfl
    | cons q l =>
      have htail := ih (fun r hr => hl r (List.mem_cons_of_mem _ hr)) (List.cons_ne_nil _ _)
        (Nat.le_of_succ_le_succ hfuel)
      have hfollows : ∀ s, Follows (44 :: s) := by
        intro s c hc
        obtain rfl : (44 : UInt8) = c := Option.some.inj hc
        decide
      rw [List.map_cons, List.map_cons, items_cons_cons, List.append_assoc, List.append_assoc, List.cons_append,
        ← List.map_cons, parseItems, hp.starts.skipWs_line, hp.item_eq _ (hfollows _), Option.bind_some]
      dsimp only
      rw [skipWs_cons (by decide)]
      dsimp only
      rw [if_pos rfl, htail]
      rfl

/-- So are items between brackets. -/
lemma parseBlock_items (hclose : close = 93 ∨ close = 125) {l : List (Fragment × α)}
    (hl : ∀ p ∈ l, ReadsItem item n p.1 p.2) (hfuel : l.length ≤ fuel) :
    parseBlock item close fuel (items n true (l.map Prod.fst) ++ (line m ++ close :: rest)) =
      some (l.map Prod.snd, rest) := by
  cases l with
  | nil =>
    rw [parseBlock, List.map_nil, items, List.nil_append, skipWs_line_cons (isWs_close hclose)]
    exact if_pos rfl
  | cons p l =>
    obtain ⟨c, s', hs, hc, hne⟩ := (hl p List.mem_cons_self).starts
    have hskip : ∃ s', skipWs (items n true ((p :: l).map Prod.fst) ++ (line m ++ close :: rest)) = c :: s' := by
      refine ⟨s' ++ items n false (l.map Prod.fst) ++ (line m ++ close :: rest), ?_⟩
      rw [List.map_cons, items, if_pos rfl, List.nil_append, hs]
      simp only [List.append_assoc, List.cons_append]
      exact skipWs_line_cons hc
    obtain ⟨s', hskip⟩ := hskip
    have hne : c ≠ close := by
      obtain rfl | rfl := hclose
      · exact hne.1
      · exact hne.2
    rw [parseBlock, hskip]
    dsimp only
    rw [if_neg hne]
    exact parseItems_items hclose hl (List.cons_ne_nil _ _) hfuel

/-! ### The rules -/

/-- The layout is read as the value, whatever follows it. -/
structure Parses (f : Fragment) (t : Value) : Prop where
  starts : ∀ n, Starts (f n)
  parseValue_eq : ∀ n fuel, (f n).length < fuel → ∀ rest, Follows rest → parseValue fuel (f n ++ rest) = some (t, rest)

lemma length_le_items (first : Bool) (l : List Fragment) : l.length ≤ (items n first l).length := by
  induction l generalizing first with
  | nil => exact Nat.le_refl _
  | cons f l ih =>
    have hle := ih false
    simp only [items, List.length_append, length_line, List.length_cons]
    omega

lemma length_lt_items {f : Fragment} {l : List Fragment} (hf : f ∈ l) (first : Bool) :
    (f n).length < (items n first l).length := by
  induction l generalizing first with
  | nil => exact absurd hf List.not_mem_nil
  | cons g l ih =>
    simp only [items, List.length_append, length_line]
    obtain rfl | hf := List.mem_cons.1 hf
    · omega
    · have hlt := ih hf false
      omega

/-- The block between its brackets, with enough fuel for its items. -/
lemma parseBlock_block (left : UInt8) {right : UInt8} (hright : right = 93 ∨ right = 125) {l : List (Fragment × α)}
    (hl : ∀ p ∈ l, ReadsItem item (n + 1) p.1 p.2) (hfuel : (block left right (l.map Prod.fst) n).length ≤ fuel) :
    parseBlock item right fuel (items (n + 1) true (l.map Prod.fst) ++ line n ++ [right] ++ rest) =
      some (l.map Prod.snd, rest) := by
  have hle := length_le_items (n := n + 1) true (l.map Prod.fst)
  simp only [block, List.length_cons, List.length_append, List.length_map] at hfuel hle
  rw [List.append_assoc, List.append_assoc, List.singleton_append]
  exact parseBlock_items hright hl (by omega)

lemma length_lt_block {f : Fragment} {l : List Fragment} (hf : f ∈ l) (left right : UInt8) :
    (f (n + 1)).length + 2 < (block left right l n).length := by
  have hlt := length_lt_items (n := n + 1) hf true
  simp only [block, List.length_cons, List.length_append, length_line, List.length_nil]
  omega

lemma parses_array {l : List (Fragment × Value)} (hl : ∀ p ∈ l, Parses p.1 p.2) :
    Parses (array (l.map Prod.fst)) (.array (l.map Prod.snd)) where
  starts n := ⟨91, _, rfl, by decide⟩
  parseValue_eq n fuel hfuel rest hrest := by
    obtain ⟨fuel, rfl⟩ := Nat.exists_eq_add_one_of_ne_zero (Nat.ne_of_gt (Nat.zero_lt_of_lt hfuel))
    have hitems : ∀ p ∈ l, ReadsItem (parseValue fuel) (n + 1) p.1 p.2 := by
      intro p hp
      have hlt := length_lt_block (n := n) (List.mem_map_of_mem hp (f := Prod.fst)) 91 93
      exact ⟨(hl p hp).starts _, (hl p hp).parseValue_eq _ _ (by rw [array] at hfuel; omega)⟩
    rw [array, block, List.cons_append, parseValue, if_neg (by decide), if_pos rfl,
      parseBlock_block 91 (.inl rfl) hitems (Nat.le_of_lt_succ hfuel)]
    rfl

/-- The text is read as the string, whatever follows it. -/
def ReadsString (text str : List UInt8) : Prop :=
  ∃ chars, text = 34 :: chars ∧ ∀ rest, parseString (chars ++ rest) = some (str, rest)

lemma parses_string {text str : List UInt8} (h : ReadsString text str) : Parses (fun _ => text) (.string str) where
  starts n := by
    obtain ⟨chars, rfl, -⟩ := h
    exact ⟨34, chars, rfl, by decide⟩
  parseValue_eq n fuel hfuel rest hrest := by
    obtain ⟨fuel, rfl⟩ := Nat.exists_eq_add_one_of_ne_zero (Nat.ne_of_gt (Nat.zero_lt_of_lt hfuel))
    obtain ⟨chars, rfl, hchars⟩ := h
    rw [List.cons_append, parseValue, if_pos rfl, hchars]
    rfl

/-- A member is read as its name and its value. -/
lemma readsItem_member {name str : List UInt8} {f : Fragment} {t : Value} (hname : ReadsString name str)
    (hf : Parses f t) (hfuel : (f n).length < fuel) :
    ReadsItem (parseMember (parseValue fuel)) n (member name f) (str, t) := by
  obtain ⟨chars, rfl, hchars⟩ := hname
  refine ⟨⟨34, _, rfl, by decide⟩, fun rest hrest => ?_⟩
  obtain ⟨c, s, hs, hc, -⟩ := hf.starts n
  have hskip : skipWs (32 :: (f n ++ rest)) = f n ++ rest := by
    rw [hs]
    exact skipWs_append_cons (w := [32]) (by simp [isWs]) hc
  simp only [member, List.cons_append, List.append_assoc, List.nil_append]
  rw [parseMember, if_pos rfl, hchars, Option.bind_some]
  dsimp only
  rw [skipWs_cons (by decide)]
  dsimp only
  rw [if_pos rfl, hskip, hf.parseValue_eq n fuel hfuel rest hrest]
  rfl

lemma parses_object {l : List (Fragment × List UInt8 × Value)}
    (hl : ∀ p ∈ l, ∃ name f, p.1 = member name f ∧ ReadsString name p.2.1 ∧ Parses f p.2.2) :
    Parses (object (l.map Prod.fst)) (.object (l.map Prod.snd)) where
  starts n := ⟨123, _, rfl, by decide⟩
  parseValue_eq n fuel hfuel rest hrest := by
    obtain ⟨fuel, rfl⟩ := Nat.exists_eq_add_one_of_ne_zero (Nat.ne_of_gt (Nat.zero_lt_of_lt hfuel))
    have hitems : ∀ p ∈ l, ReadsItem (parseMember (parseValue fuel)) (n + 1) p.1 p.2 := by
      intro p hp
      have hlt := length_lt_block (n := n) (List.mem_map_of_mem hp (f := Prod.fst)) 123 125
      obtain ⟨name, f, hmember, hname, hf⟩ := hl p hp
      rw [hmember, length_member] at hlt
      rw [hmember]
      exact readsItem_member hname hf (by rw [object] at hfuel; omega)
    rw [object, block, List.cons_append, parseValue, if_neg (by decide), if_neg (by decide), if_pos rfl,
      parseBlock_block 123 (.inr rfl) hitems (Nat.le_of_lt_succ hfuel)]
    rfl

/-! ### Literals and numbers -/

lemma parses_null : Parses (fun _ => [110, 117, 108, 108]) .null where
  starts n := ⟨110, _, rfl, by decide⟩
  parseValue_eq n fuel hfuel rest hrest := by
    obtain ⟨fuel, rfl⟩ := Nat.exists_eq_add_one_of_ne_zero (Nat.ne_of_gt (Nat.zero_lt_of_lt hfuel))
    rfl

lemma parses_true : Parses (fun _ => [116, 114, 117, 101]) (.bool true) where
  starts n := ⟨116, _, rfl, by decide⟩
  parseValue_eq n fuel hfuel rest hrest := by
    obtain ⟨fuel, rfl⟩ := Nat.exists_eq_add_one_of_ne_zero (Nat.ne_of_gt (Nat.zero_lt_of_lt hfuel))
    rfl

lemma parses_false : Parses (fun _ => [102, 97, 108, 115, 101]) (.bool false) where
  starts n := ⟨102, _, rfl, by decide⟩
  parseValue_eq n fuel hfuel rest hrest := by
    obtain ⟨fuel, rfl⟩ := Nat.exists_eq_add_one_of_ne_zero (Nat.ne_of_gt (Nat.zero_lt_of_lt hfuel))
    rfl

lemma digitsValue_decimal (n : ℕ) : digitsValue (decimal n) = n := by
  induction n using Nat.strong_induction_on with
  | _ n ih =>
    rcases Nat.lt_or_ge n 10 with hlt | hge
    · rw [decimal_of_lt hlt]
      interval_cases n <;> rfl
    · rw [decimal_of_le hge, digitsValue, List.foldl_append, ← digitsValue,
        ih (n / 10) (Nat.div_lt_self (by omega) (by norm_num))]
      have hmod : n % 10 < 10 := Nat.mod_lt _ (by norm_num)
      have hdigit : (UInt8.ofNat (48 + n % 10)).toNat = 48 + n % 10 := by
        rw [UInt8.toNat_ofNat']
        omega
      rw [List.foldl_cons, List.foldl_nil, hdigit]
      omega

/-- The digits of a number, with a zero in front only if it is the only one. -/
lemma decimal_digits (n : ℕ) : (∀ c ∈ decimal n, isDigit c = true) ∧ decimal n ≠ [] ∧
    ((decimal n).head? = some 48 → (decimal n).length = 1) := by
  have hisDigit : ∀ c : UInt8, IsDigit c → isDigit c = true := fun c hc => by
    rw [isDigit, Bool.and_eq_true, decide_eq_true_eq, decide_eq_true_eq]
    exact hc
  rcases Nat.eq_zero_or_pos n with rfl | hn
  · exact ⟨List.forall_mem_singleton.2 rfl, by decide, fun _ => rfl⟩
  · obtain ⟨c, s, heq, hc, hs⟩ := decimal_pos hn
    rw [heq]
    refine ⟨?_, List.cons_ne_nil c s, fun hzero => ?_⟩
    · rw [List.forall_mem_cons]
      exact ⟨hisDigit c ⟨UInt8.le_trans (by decide) hc.1, hc.2⟩, fun d hd => hisDigit d (hs d hd)⟩
    · obtain rfl := Option.some.inj hzero
      exact absurd hc.1 (by decide)

lemma parseDigits_append {s : List UInt8} (hs : ∀ c ∈ s, isDigit c = true) (hne : s ≠ []) (hrest : Follows rest) :
    parseDigits (s ++ rest) = some (s, rest) := by
  have htake : rest.takeWhile isDigit = [] ∧ rest.dropWhile isDigit = rest := by
    cases rest with
    | nil => exact ⟨rfl, rfl⟩
    | cons c rest =>
      have hc := (hrest c rfl).1
      exact ⟨List.takeWhile_cons_of_neg (by rw [hc]; decide), List.dropWhile_cons_of_neg (by rw [hc]; decide)⟩
  rw [parseDigits, List.takeWhile_append_of_pos hs, List.dropWhile_append_of_pos hs, htake.1, htake.2, List.append_nil,
    if_neg hne]

lemma Follows.parseFraction (hrest : Follows rest) : parseFraction rest = some ([], rest) := by
  refine if_neg fun hpoint => ?_
  exact (hrest 46 hpoint).2.1 rfl

lemma Follows.parseExponent (hrest : Follows rest) : parseExponent rest = some (0, rest) := by
  refine if_neg ?_
  rintro (he | he)
  · exact (hrest 69 he).2.2.1 rfl
  · exact (hrest 101 he).2.2.2 rfl

lemma parseNumber_decimal (n : ℕ) (hrest : Follows rest) {s : List UInt8} {sign : ℤ}
    (hs : s.head? = some 45 ∧ sign = -1 ∧ s.tail = decimal n ++ rest ∨
      s.head? ≠ some 45 ∧ sign = 1 ∧ s = decimal n ++ rest) :
    parseNumber s = some (.number (sign * n) 0, rest) := by
  obtain ⟨hdigits, hne, hzero⟩ := decimal_digits n
  have hsign : (if s.head? = some 45 then (-1 : ℤ) else 1) = sign ∧
      (if s.head? = some 45 then s.tail else s) = decimal n ++ rest := by
    obtain ⟨hhead, hsign, hs⟩ | ⟨hhead, hsign, hs⟩ := hs
    · rw [if_pos hhead, if_pos hhead]
      exact ⟨hsign.symm, hs⟩
    · rw [if_neg hhead, if_neg hhead]
      exact ⟨hsign.symm, hs⟩
  have hzero' : ¬ ((decimal n).head? = some 48 ∧ (decimal n).length ≠ 1) := fun h => h.2 (hzero h.1)
  rw [parseNumber, hsign.1, hsign.2]
  simp [parseDigits_append hdigits hne hrest, hzero', hrest.parseFraction, hrest.parseExponent, digitsValue_decimal]

/-- A value that starts with a minus or a digit is a number. -/
lemma parseValue_number {c : UInt8} (hc : c = 45 ∨ isDigit c = true) (fuel : ℕ) (s : List UInt8) :
    parseValue (fuel + 1) (c :: s) = parseNumber (c :: s) := by
  have hne : ∀ d : UInt8, d ≠ 45 → isDigit d = false → c ≠ d := by
    rintro d hminus hdigit rfl
    obtain rfl | hc := hc
    · exact hminus rfl
    · exact Bool.false_ne_true (hdigit.symm.trans hc)
  rw [parseValue, if_neg (hne 34 (by decide) rfl), if_neg (hne 91 (by decide) rfl), if_neg (hne 123 (by decide) rfl),
    if_neg (hne 110 (by decide) rfl), if_neg (hne 116 (by decide) rfl), if_neg (hne 102 (by decide) rfl)]

lemma integer_cons (i : ℤ) : ∃ c s, integer i = c :: s ∧ (c = 45 ∨ isDigit c = true) := by
  obtain ⟨hdigits, hne, -⟩ := decimal_digits i.natAbs
  rw [integer]
  split_ifs
  · exact ⟨45, _, rfl, .inl rfl⟩
  · obtain ⟨c, s, hs⟩ := List.exists_cons_of_ne_nil hne
    exact ⟨c, s, hs, .inr (hdigits c (hs ▸ List.mem_cons_self))⟩

lemma parseNumber_integer (i : ℤ) (hrest : Follows rest) :
    parseNumber (integer i ++ rest) = some (.number i 0, rest) := by
  rcases lt_or_ge i 0 with hi | hi
  · have hvalue : -1 * (i.natAbs : ℤ) = i := by omega
    rw [integer, if_pos hi, parseNumber_decimal i.natAbs hrest (.inl ⟨rfl, rfl, rfl⟩), hvalue]
  · have hvalue : 1 * (i.natAbs : ℤ) = i := by omega
    obtain ⟨hdigits, hne, -⟩ := decimal_digits i.natAbs
    obtain ⟨c, s, hs⟩ := List.exists_cons_of_ne_nil hne
    have hhead : (decimal i.natAbs ++ rest).head? ≠ some 45 := by
      rw [hs]
      intro hminus
      obtain rfl := Option.some.inj hminus
      exact absurd (hdigits 45 (hs ▸ List.mem_cons_self)) (by decide)
    rw [integer, if_neg (not_lt.2 hi), parseNumber_decimal i.natAbs hrest (.inr ⟨hhead, rfl, rfl⟩), hvalue]

lemma parses_integer (i : ℤ) : Parses (fun _ => integer i) (.number i 0) where
  starts n := by
    obtain ⟨c, s, hs, hc⟩ := integer_cons i
    refine ⟨c, s, hs, ?_⟩
    obtain rfl | hc := hc
    · decide
    · have hne : ∀ d : UInt8, isDigit d = false → c ≠ d := by
        rintro d hd rfl
        exact Bool.false_ne_true (hd.symm.trans hc)
      simp [isWs, hne 32 rfl, hne 9 rfl, hne 10 rfl, hne 13 rfl, hne 93 rfl, hne 125 rfl]
  parseValue_eq n fuel hfuel rest hrest := by
    obtain ⟨fuel, rfl⟩ := Nat.exists_eq_add_one_of_ne_zero (Nat.ne_of_gt (Nat.zero_lt_of_lt hfuel))
    obtain ⟨c, s, hs, hc⟩ := integer_cons i
    rw [hs, List.cons_append, parseValue_number hc, ← List.cons_append, ← hs, parseNumber_integer i hrest]

/-- The layout with a line end behind it is a text. -/
lemma Parses.parse_eq {f : Fragment} {t : Value} (h : Parses f t) : parse (f 0 ++ [10]) = some t := by
  obtain ⟨c, s, hs, hc, -⟩ := h.starts 0
  have hskip : skipWs (f 0 ++ [10]) = f 0 ++ [10] := by
    rw [hs]
    exact skipWs_cons hc
  have hfollows : Follows [10] := by
    intro c hc
    obtain rfl : (10 : UInt8) = c := Option.some.inj hc
    decide
  rw [parse, hskip, h.parseValue_eq 0 _ (by rw [List.length_append]; omega) _ hfollows]
  rfl

end DDNet.Lib.Json
