/-
Censoring chat messages (`CGameContext::CensorMessage`, `game/server/gamecontext.cpp`, with `str_utf8_find_nocase`,
`base/system.cpp`).

A listed word is found by comparing characters, but as many bytes are overwritten as the word itself has.  As long as
these are whole characters of the text, the rest of the text stays as it is, and no listed word without asterisks is
left in it (`censorMessage_of_run`).
-/
import DDNet.Base.Encode
import Mathlib.Data.List.Infix

namespace DDNet

open Utf8

variable (tolower : ℤ → ℤ)

/-! ### `str_utf8_find_nocase` -/

/-- The inner loop: the needle is at the start of the text. -/
def matchNocase : List UInt8 → List UInt8 → Bool
  | _, [] => true
  | [], _ :: _ => false
  | x :: a, y :: b =>
    if tolower (strUtf8Decode (x :: a)).1 = tolower (strUtf8Decode (y :: b)).1 then
      matchNocase (strUtf8Decode (x :: a)).2 (strUtf8Decode (y :: b)).2
    else false
termination_by a => a.length
decreasing_by exact strUtf8Decode_length x a

/-- The place of the needle in the text. -/
def strUtf8FindNocase (needle : List UInt8) : List UInt8 → Option ℕ
  | [] => none
  | x :: haystack =>
    if matchNocase tolower (x :: haystack) needle then some 0
    else
      (strUtf8FindNocase needle (strUtf8Decode (x :: haystack)).2).map
        (· + ((x :: haystack).length - (strUtf8Decode (x :: haystack)).2.length))
termination_by haystack => haystack.length
decreasing_by exact strUtf8Decode_length x haystack

variable {tolower} in
lemma strUtf8FindNocase_lt {needle text : List UInt8} {loc : ℕ}
    (h : strUtf8FindNocase tolower needle text = some loc) : loc < text.length := by
  induction text using strUtf8FindNocase.induct tolower needle generalizing loc with
  | case1 =>
    rw [strUtf8FindNocase] at h
    exact absurd h.symm (Option.some_ne_none loc)
  | case2 x text hmatch =>
    rw [strUtf8FindNocase, if_pos hmatch] at h
    obtain rfl := Option.some.inj h
    exact Nat.succ_pos _
  | case3 x text hmatch ih =>
    rw [strUtf8FindNocase, if_neg hmatch] at h
    obtain ⟨k, hk, rfl⟩ := Option.map_eq_some_iff.1 h
    have hlt := strUtf8Decode_length x text
    have hle := ih hk
    omega

namespace CGameContext

/-! ### Censoring -/

/-- The string at the start of the memory; nothing if it runs out of it. -/
def cString (memory : List UInt8) : Option (List UInt8) :=
  if 0 ∈ memory then some (memory.takeWhile (· ≠ 0)) else none

lemma length_cString_le {memory text : List UInt8} (h : cString memory = some text) : text.length ≤ memory.length := by
  rw [cString] at h
  split_ifs at h
  obtain rfl := Option.some.inj h
  exact (List.takeWhile_prefix _).length_le

/-- The loop for a word from a place of the buffer on; nothing if something outside of the buffer is read or
written. -/
def censorItem (item memory : List UInt8) : Option (List UInt8) :=
  match hstring : cString memory with
  | none => none
  | some text =>
    match hfound : strUtf8FindNocase tolower item text with
    | none => some memory
    | some loc =>
      if loc + item.length ≤ memory.length then
        let after := List.replicate item.length 42 ++ memory.drop (loc + item.length)
        (censorItem item after.tail).map fun rest => memory.take loc ++ after.take 1 ++ rest
      else none
termination_by memory.length
decreasing_by
  have hlt := strUtf8FindNocase_lt hfound
  have hle := length_cString_le hstring
  simp only [List.length_tail, List.length_append, List.length_replicate, List.length_drop]
  omega

/-- `CensorMessage`, with what the buffer contains before. -/
def censorMessage (censorlist : List (List UInt8)) (message buffer : List UInt8) : Option (List UInt8) :=
  let copy := strCopy buffer.length message
  censorlist.foldlM (fun memory item => censorItem tolower item memory) (copy ++ 0 :: buffer.drop (copy.length + 1))

/-! ### Characters -/

variable {tolower} {w v cs suf out : List Char} {c d : Char}

variable (tolower) in
/-- What is compared of a character. -/
def folded (c : Char) : ℤ := tolower (c.toNat : ℤ)

variable (tolower) in
/-- The word is in the text. -/
def Occurs (w cs : List Char) : Prop := w.map (folded tolower) <:+: cs.map (folded tolower)

lemma exists_utf8EncodeChar_cons (c : Char) (s : List UInt8) :
    ∃ b t, String.utf8EncodeChar c ++ s = b :: t ∧ strUtf8Decode (b :: t) = ((c.toNat : ℤ), s) := by
  obtain ⟨b, t, hb⟩ := List.exists_cons_of_ne_nil (utf8EncodeChar_ne_nil c)
  have hdecode := strUtf8Decode_encodeChar c s
  rw [hb, List.cons_append] at hdecode
  exact ⟨b, t ++ s, by rw [hb, List.cons_append], hdecode⟩

lemma matchNocase_encode (w cs : List Char) :
    matchNocase tolower (encode cs) (encode w) = true ↔ w.map (folded tolower) <+: cs.map (folded tolower) := by
  induction w generalizing cs with
  | nil => simp [matchNocase]
  | cons c w ih =>
    obtain ⟨b, t, hb, hdecode⟩ := exists_utf8EncodeChar_cons c (encode w)
    cases cs with
    | nil =>
      rw [encode_cons, hb, encode_nil, matchNocase]
      simp
    | cons d cs =>
      obtain ⟨b', t', hb', hdecode'⟩ := exists_utf8EncodeChar_cons d (encode cs)
      rw [encode_cons d, hb', encode_cons c, hb, matchNocase, hdecode, hdecode', List.map_cons, List.map_cons,
        List.cons_prefix_cons, ← ih]
      split_ifs with heq
      · exact (and_iff_right heq.symm).symm
      · exact iff_of_false (by simp) fun h => heq h.1.symm

/-- A word that is found is at the place, and not at any place before. -/
lemma strUtf8FindNocase_encode_some {loc : ℕ} (h : strUtf8FindNocase tolower (encode w) (encode cs) = some loc) :
    ∃ before rest, cs = before ++ rest ∧ loc = (encode before).length ∧ rest ≠ [] ∧
      w.map (folded tolower) <+: rest.map (folded tolower) ∧
      ∀ before' suf, cs = before' ++ suf → before'.length < before.length →
        ¬ w.map (folded tolower) <+: suf.map (folded tolower) := by
  induction cs generalizing loc with
  | nil =>
    rw [encode_nil, strUtf8FindNocase] at h
    exact absurd h.symm (Option.some_ne_none loc)
  | cons d cs ih =>
    obtain ⟨b, t, hb, hdecode⟩ := exists_utf8EncodeChar_cons d (encode cs)
    have hmatch := @matchNocase_encode tolower w (d :: cs)
    rw [encode_cons, hb] at h hmatch
    rw [strUtf8FindNocase] at h
    split_ifs at h with hhere
    · obtain rfl := Option.some.inj h
      exact ⟨[], d :: cs, rfl, rfl, List.cons_ne_nil _ _, hmatch.1 hhere,
        fun _ _ _ hlt => absurd hlt (Nat.not_lt_zero _)⟩
    · rw [hdecode] at h
      obtain ⟨k, hk, rfl⟩ := Option.map_eq_some_iff.1 h
      obtain ⟨before, rest, rfl, rfl, hrest, hfound, hfirst⟩ := ih hk
      refine ⟨d :: before, rest, rfl, ?_, hrest, hfound, fun before' suf hsplit hlt => ?_⟩
      · rw [← hb, encode_cons, List.length_append, List.length_append, Nat.add_sub_cancel, Nat.add_comm]
      · cases before' with
        | nil =>
          rw [List.nil_append] at hsplit
          exact fun hstart => hhere (hmatch.2 (hsplit ▸ hstart))
        | cons e before' =>
          obtain ⟨-, hsplit⟩ := List.cons.inj hsplit
          exact hfirst before' suf hsplit (Nat.lt_of_succ_lt_succ hlt)

lemma strUtf8FindNocase_encode_eq_none (hw : w ≠ []) :
    strUtf8FindNocase tolower (encode w) (encode cs) = none ↔ ¬ Occurs tolower w cs := by
  induction cs with
  | nil =>
    rw [encode_nil, strUtf8FindNocase]
    refine iff_of_true rfl fun h => hw ?_
    exact List.map_eq_nil_iff.1 (List.infix_nil.1 h)
  | cons d cs ih =>
    obtain ⟨b, t, hb, hdecode⟩ := exists_utf8EncodeChar_cons d (encode cs)
    have hmatch := @matchNocase_encode tolower w (d :: cs)
    rw [encode_cons, hb] at hmatch ⊢
    rw [strUtf8FindNocase, hdecode, Occurs, List.map_cons, List.infix_cons_iff, not_or, ← List.map_cons, ← hmatch]
    split_ifs with hhere
    · exact iff_of_false (by simp) fun h => h.1 hhere
    · rw [Option.map_eq_none_iff, ih]
      exact (and_iff_right hhere).symm

/-! ### A run that overwrites whole characters -/

variable (tolower) in
/-- The loop for a word, if the bytes that it overwrites at each place are some characters of the text. -/
inductive ItemRun (w : List Char) : List Char → List Char → Prop
  | done {cs : List Char} : strUtf8FindNocase tolower (encode w) (encode cs) = none → ItemRun w cs cs
  | replace {before part rest out : List Char} :
    strUtf8FindNocase tolower (encode w) (encode (before ++ (part ++ rest))) = some (encode before).length →
    (encode part).length = (encode w).length →
    ItemRun w (List.replicate ((encode w).length - 1) '*' ++ rest) out →
    ItemRun w (before ++ (part ++ rest)) (before ++ '*' :: out)

variable (tolower) in
/-- The loops for some words. -/
inductive CensorRun : List (List Char) → List Char → List Char → Prop
  | nil {cs : List Char} : CensorRun [] cs cs
  | cons {w : List Char} {censorlist : List (List Char)} {cs cs' out : List Char} :
    ItemRun tolower w cs cs' → CensorRun censorlist cs' out → CensorRun (w :: censorlist) cs out

lemma encode_star : String.utf8EncodeChar '*' = [42] := by decide

lemma encode_stars (k : ℕ) : encode (List.replicate k '*') = List.replicate k 42 := by
  induction k with
  | zero => rfl
  | succ k ih => rw [List.replicate_succ, encode_cons, ih, List.replicate_succ, encode_star, List.singleton_append]

lemma cString_append {text rest : List UInt8} (h : 0 ∉ text) : cString (text ++ 0 :: rest) = some text := by
  rw [cString, if_pos (List.mem_append_right _ List.mem_cons_self), List.takeWhile_append_of_pos,
    List.takeWhile_cons_of_neg]
  · rw [List.append_nil]
  · simp
  · intro b hb
    simpa using ne_of_mem_of_not_mem hb h

lemma censorItem_of_none {item memory text : List UInt8} (hstring : cString memory = some text)
    (hfound : strUtf8FindNocase tolower item text = none) : censorItem tolower item memory = some memory := by
  rw [censorItem]
  split
  · next h => simp [h] at hstring
  · next text' h =>
    obtain rfl : text' = text := Option.some.inj (h.symm.trans hstring)
    split
    · rfl
    · next h => simp [h] at hfound

lemma censorItem_of_some {item memory text : List UInt8} {loc : ℕ} (hstring : cString memory = some text)
    (hfound : strUtf8FindNocase tolower item text = some loc) (hle : loc + item.length ≤ memory.length) :
    censorItem tolower item memory =
      let after := List.replicate item.length 42 ++ memory.drop (loc + item.length)
      (censorItem tolower item after.tail).map fun rest => memory.take loc ++ after.take 1 ++ rest := by
  rw [censorItem]
  split
  · next h => simp [h] at hstring
  · next text' h =>
    obtain rfl : text' = text := Option.some.inj (h.symm.trans hstring)
    split
    · next h => simp [h] at hfound
    · next loc' h =>
      obtain rfl : loc' = loc := Option.some.inj (h.symm.trans hfound)
      rw [if_pos hle]

lemma censorItem_of_overrun {item memory text : List UInt8} {loc : ℕ} (hstring : cString memory = some text)
    (hfound : strUtf8FindNocase tolower item text = some loc) (hlt : memory.length < loc + item.length) :
    censorItem tolower item memory = none := by
  rw [censorItem]
  split
  · rfl
  · next text' h =>
    obtain rfl : text' = text := Option.some.inj (h.symm.trans hstring)
    split
    · next h => simp [h] at hfound
    · next loc' h =>
      obtain rfl : loc' = loc := Option.some.inj (h.symm.trans hfound)
      rw [if_neg (Nat.not_le.2 hlt)]

lemma length_encode_pos (hw : w ≠ []) : 0 < (encode w).length := by
  cases w with
  | nil => exact absurd rfl hw
  | cons c w =>
    rw [encode_cons, List.length_append]
    exact Nat.add_pos_left (List.length_pos_of_ne_nil (utf8EncodeChar_ne_nil c)) _

/-- Such a run is what the loop does, and it leaves what is behind the text as it is. -/
lemma censorItem_of_run {garbage : List UInt8} (hw : w ≠ []) (hrun : ItemRun tolower w cs out)
    (hcs : ∀ c ∈ cs, c.toNat ≠ 0) :
    (∀ c ∈ out, c.toNat ≠ 0) ∧
      censorItem tolower (encode w) (encode cs ++ 0 :: garbage) = some (encode out ++ 0 :: garbage) := by
  induction hrun with
  | done hnone => exact ⟨hcs, censorItem_of_none (cString_append (zero_notMem_encode hcs)) hnone⟩
  | @replace before part rest out hfound hlen hrun ih =>
    obtain ⟨k, hk⟩ := Nat.exists_eq_add_of_lt (length_encode_pos hw)
    rw [Nat.zero_add] at hk
    have hstar : ('*' : Char).toNat ≠ 0 := by decide
    have hrest : ∀ c ∈ List.replicate ((encode w).length - 1) '*' ++ rest, c.toNat ≠ 0 := by
      intro c hc
      obtain hc | hc := List.mem_append.1 hc
      · exact List.eq_of_mem_replicate hc ▸ hstar
      · exact hcs c (by simp [hc])
    obtain ⟨hout, hitem⟩ := ih hrest
    refine ⟨fun c hc => ?_, ?_⟩
    · obtain hc | hc := List.mem_append.1 hc
      · exact hcs c (by simp [hc])
      · obtain rfl | hc := List.mem_cons.1 hc
        · exact hstar
        · exact hout c hc
    · have hmemory : encode (before ++ (part ++ rest)) ++ 0 :: garbage =
          encode before ++ (encode part ++ (encode rest ++ 0 :: garbage)) := by
        simp only [encode_append, List.append_assoc]
      have hdrop : (encode (before ++ (part ++ rest)) ++ 0 :: garbage).drop
          ((encode before).length + (encode w).length) = encode rest ++ 0 :: garbage := by
        rw [hmemory, ← hlen, List.drop_length_add_append, List.drop_left]
      rw [censorItem_of_some (cString_append (zero_notMem_encode hcs)) hfound]
      · have htail : encode (List.replicate ((encode w).length - 1) '*' ++ rest) =
            List.replicate k 42 ++ encode rest := by
          rw [encode_append, encode_stars, hk, Nat.add_sub_cancel]
        rw [htail, List.append_assoc] at hitem
        dsimp only
        rw [hdrop, hk, List.replicate_succ, List.cons_append, List.tail_cons, hitem, hmemory, List.take_left]
        simp [encode_append, encode_star]
      · rw [hmemory, ← hlen]
        simp only [List.length_append]
        omega

/-! ### What is left of the text -/

/-- Some characters of a text are replaced by as many asterisks as they have bytes. -/
inductive Masked : List Char → List Char → Prop
  | nil : Masked [] []
  | keep (c : Char) {cs out : List Char} : Masked cs out → Masked (c :: cs) (c :: out)
  | mask (c : Char) {cs out : List Char} : Masked cs out →
    Masked (c :: cs) (List.replicate (String.utf8EncodeChar c).length '*' ++ out)

lemma Masked.refl (cs : List Char) : Masked cs cs := by
  induction cs with
  | nil => exact .nil
  | cons c cs ih => exact .keep c ih

lemma Masked.append {cs₁ cs₂ out₁ out₂ : List Char} (h₁ : Masked cs₁ out₁) (h₂ : Masked cs₂ out₂) :
    Masked (cs₁ ++ cs₂) (out₁ ++ out₂) := by
  induction h₁ with
  | nil => exact h₂
  | keep c _ ih => exact .keep c ih
  | mask c _ ih =>
    rw [List.append_assoc]
    exact .mask c ih

lemma Masked.all (cs : List Char) : Masked cs (List.replicate (encode cs).length '*') := by
  induction cs with
  | nil => exact .nil
  | cons c cs ih =>
    rw [encode_cons, List.length_append, List.replicate_add]
    exact .mask c ih

lemma Masked.stars {k : ℕ} {rest : List Char} (h : Masked (List.replicate k '*' ++ rest) out) :
    ∃ out', out = List.replicate k '*' ++ out' ∧ Masked rest out' := by
  induction k generalizing out with
  | zero => exact ⟨out, rfl, h⟩
  | succ k ih =>
    rw [List.replicate_succ, List.cons_append] at h
    have hhead : ∀ {tail : List Char}, Masked (List.replicate k '*' ++ rest) tail →
        ∃ out', '*' :: tail = List.replicate (k + 1) '*' ++ out' ∧ Masked rest out' := by
      intro tail htail
      obtain ⟨out', rfl, hout'⟩ := ih htail
      exact ⟨out', rfl, hout'⟩
    cases h with
    | keep _ htail => exact hhead htail
    | mask _ htail => exact hhead htail

lemma Masked.trans {out₂ : List Char} (h₁ : Masked cs out) (h₂ : Masked out out₂) : Masked cs out₂ := by
  induction h₁ generalizing out₂ with
  | nil => exact h₂
  | keep c _ ih =>
    cases h₂ with
    | keep _ h => exact .keep c (ih h)
    | mask _ h => exact .mask c (ih h)
  | mask c _ ih =>
    obtain ⟨out', rfl, h⟩ := h₂.stars
    exact .mask c (ih h)

lemma masked_of_itemRun (hw : w ≠ []) (hrun : ItemRun tolower w cs out) : Masked cs out := by
  induction hrun with
  | done _ => exact Masked.refl _
  | @replace before part rest out _ hlen _ ih =>
    obtain ⟨k, hk⟩ := Nat.exists_eq_add_of_lt (length_encode_pos hw)
    rw [Nat.zero_add] at hk
    obtain ⟨out', rfl, hout'⟩ := ih.stars
    have hall := Masked.all part
    rw [hlen, hk, List.replicate_succ] at hall
    rw [hk, Nat.add_sub_cancel]
    exact (Masked.refl before).append (hall.append hout')

/-! ### Words without asterisks -/

lemma infix_of_append_cons {α : Type} {l a b : List α} {x : α} (h : l <:+: a ++ x :: b) (hx : x ∉ l) :
    l <:+: a ∨ l <:+: b := by
  obtain ⟨s, t, h⟩ := h
  rw [List.append_assoc] at h
  obtain ⟨a', rfl, htail⟩ | ⟨c, rfl, htail⟩ := List.append_eq_append_iff.1 h
  · obtain ⟨c, rfl, -⟩ | ⟨c, rfl, hcons⟩ := List.append_eq_append_iff.1 htail
    · exact .inl ⟨s, c, List.append_assoc ..⟩
    · cases c with
      | nil => exact .inl ⟨s, [], by simp⟩
      | cons y c =>
        obtain ⟨rfl, -⟩ := List.cons.inj hcons
        exact absurd (by simp) hx
  · cases c with
    | nil =>
      cases l with
      | nil => exact .inl List.nil_infix
      | cons y l =>
        obtain ⟨rfl, -⟩ := List.cons.inj htail
        exact absurd List.mem_cons_self hx
    | cons y c =>
      obtain ⟨-, rfl⟩ := List.cons.inj htail
      exact .inr ⟨c, t, List.append_assoc ..⟩

/-- A word without asterisks is not in a text with an asterisk unless it is before or behind it. -/
lemma occurs_of_star {before rest : List Char} (hv : folded tolower '*' ∉ v.map (folded tolower))
    (h : Occurs tolower v (before ++ '*' :: rest)) : Occurs tolower v before ∨ Occurs tolower v rest := by
  rw [Occurs, List.map_append, List.map_cons] at h
  exact infix_of_append_cons h hv

lemma Occurs.append_right {before rest : List Char} (h : Occurs tolower v rest) :
    Occurs tolower v (before ++ rest) := by
  rw [Occurs, List.map_append]
  exact h.trans (List.suffix_append _ _).isInfix

lemma Occurs.append_left {before rest : List Char} (h : Occurs tolower v before) :
    Occurs tolower v (before ++ rest) := by
  rw [Occurs, List.map_append]
  exact h.trans (List.prefix_append _ _).isInfix

lemma occurs_of_stars {k : ℕ} {rest : List Char} (hv : folded tolower '*' ∉ v.map (folded tolower))
    (h : Occurs tolower v (List.replicate k '*' ++ rest)) : Occurs tolower v rest := by
  induction k with
  | zero => exact h
  | succ k ih =>
    obtain h | h := @occurs_of_star tolower v [] _ hv h
    · exact @Occurs.append_left tolower v [] _ h
    · exact ih h

/-- Censoring brings no word without asterisks into the text. -/
lemma occurs_of_itemRun (hv : folded tolower '*' ∉ v.map (folded tolower)) (hrun : ItemRun tolower w cs out)
    (h : Occurs tolower v out) : Occurs tolower v cs := by
  induction hrun with
  | done _ => exact h
  | @replace before part rest out _ _ _ ih =>
    obtain h | h := occurs_of_star hv h
    · exact h.append_left
    · exact (occurs_of_stars hv (ih h)).append_right.append_right

lemma eq_of_length_encode {a b a' b' : List Char} (h : a ++ b = a' ++ b')
    (hlen : (encode a).length = (encode a').length) : a = a' := by
  have hnil : ∀ {c t : List Char}, (encode c).length = (encode (c ++ t)).length → t = [] := by
    intro c t heq
    by_contra ht
    rw [encode_append, List.length_append] at heq
    have := length_encode_pos ht
    omega
  obtain ⟨t, rfl, -⟩ | ⟨t, rfl, -⟩ := List.append_eq_append_iff.1 h
  · rw [hnil hlen, List.append_nil]
  · rw [hnil hlen.symm, List.append_nil]

/-- Of the word itself nothing is left. -/
lemma not_occurs_of_itemRun (hw : w ≠ []) (hv : folded tolower '*' ∉ w.map (folded tolower))
    (hrun : ItemRun tolower w cs out) : ¬ Occurs tolower w out := by
  induction hrun with
  | done hnone => exact (strUtf8FindNocase_encode_eq_none hw).1 hnone
  | @replace before part rest out hfound _ _ ih =>
    intro h
    obtain h | h := occurs_of_star hv h
    · obtain ⟨before₂, rest₂, hsplit, hlen, -, -, hfirst⟩ := strUtf8FindNocase_encode_some hfound
      obtain rfl := eq_of_length_encode hsplit hlen
      obtain ⟨s, t, h⟩ := h
      have hlen : s.length + w.length + t.length = before.length := by
        simpa [Nat.add_assoc] using congrArg List.length h
      have hpos := List.length_pos_of_ne_nil hw
      refine hfirst (before.take s.length) (before.drop s.length ++ (part ++ rest)) ?_ ?_ ?_
      · rw [← List.append_assoc (before.take _), List.take_append_drop]
      · rw [List.length_take]
        omega
      · rw [List.map_append, List.map_drop, ← h, List.append_assoc, List.drop_left, List.append_assoc]
        exact List.prefix_append _ _
    · exact ih h

/-! ### The whole list -/

lemma notMem_folded (hstar : ∀ c, tolower c = 42 ↔ c = 42) (hw : '*' ∉ w) :
    folded tolower '*' ∉ w.map (folded tolower) := by
  rintro hmem
  obtain ⟨c, hc, heq⟩ := List.mem_map.1 hmem
  have hcode : (c.toNat : ℤ) = 42 := (hstar _).1 (heq.trans ((hstar _).2 rfl))
  have hc' : c = '*' := Char.toNat_inj.1 (Int.ofNat_inj.1 hcode)
  exact hw (hc' ▸ hc)

lemma occurs_of_censorRun {censorlist : List (List Char)} (hv : folded tolower '*' ∉ v.map (folded tolower))
    (hrun : CensorRun tolower censorlist cs out) (h : Occurs tolower v out) : Occurs tolower v cs := by
  induction hrun with
  | nil => exact h
  | cons hitem _ ih => exact occurs_of_itemRun hv hitem (ih h)

lemma not_occurs_of_censorRun {censorlist : List (List Char)} (hstar : ∀ c, tolower c = 42 ↔ c = 42)
    (hne : ∀ w ∈ censorlist, w ≠ []) (hrun : CensorRun tolower censorlist cs out) :
    ∀ w ∈ censorlist, '*' ∉ w → ¬ Occurs tolower w out := by
  induction hrun with
  | nil => exact fun w hw => absurd hw List.not_mem_nil
  | @cons w censorlist _ _ _ hitem hrun ih =>
    intro v hv hstar'
    obtain rfl | hv := List.mem_cons.1 hv
    · have hfolded := notMem_folded hstar hstar'
      exact fun h => not_occurs_of_itemRun (hne v List.mem_cons_self) hfolded hitem
        (occurs_of_censorRun hfolded hrun h)
    · exact ih (fun w hw => hne w (List.mem_cons_of_mem _ hw)) v hv hstar'

lemma masked_of_censorRun {censorlist : List (List Char)} (hne : ∀ w ∈ censorlist, w ≠ [])
    (hrun : CensorRun tolower censorlist cs out) : Masked cs out := by
  induction hrun with
  | nil => exact Masked.refl _
  | cons hitem _ ih =>
    exact (masked_of_itemRun (hne _ List.mem_cons_self) hitem).trans
      (ih fun w hw => hne w (List.mem_cons_of_mem _ hw))

lemma foldlM_censorItem {censorlist : List (List Char)} {garbage : List UInt8} (hne : ∀ w ∈ censorlist, w ≠ [])
    (hrun : CensorRun tolower censorlist cs out) (hcs : ∀ c ∈ cs, c.toNat ≠ 0) :
    (censorlist.map encode).foldlM (fun memory item => censorItem tolower item memory) (encode cs ++ 0 :: garbage) =
      some (encode out ++ 0 :: garbage) := by
  induction hrun with
  | nil => rfl
  | cons hitem _ ih =>
    obtain ⟨hcs', hstep⟩ := @censorItem_of_run tolower _ _ _ garbage (hne _ List.mem_cons_self) hitem hcs
    rw [List.map_cons, List.foldlM_cons, hstep]
    exact ih (fun w hw => hne w (List.mem_cons_of_mem _ hw)) hcs'

lemma Masked.length_encode (h : Masked cs out) : (encode out).length = (encode cs).length := by
  induction h with
  | nil => rfl
  | keep c _ ih => rw [encode_cons, encode_cons, List.length_append, List.length_append, ih]
  | mask c _ ih =>
    rw [encode_append, encode_stars, encode_cons, List.length_append, List.length_append, List.length_replicate, ih]

/-! ### Words whose characters have one size -/

lemma length_encode_of_folded {part : List Char}
    (hsame : ∀ c ∈ w, ∀ d ∈ part, folded tolower d = folded tolower c →
      (String.utf8EncodeChar d).length = (String.utf8EncodeChar c).length)
    (h : part.map (folded tolower) = w.map (folded tolower)) : (encode part).length = (encode w).length := by
  induction part generalizing w with
  | nil =>
    rw [List.map_nil] at h
    rw [List.map_eq_nil_iff.1 h.symm]
  | cons d part ih =>
    cases w with
    | nil => exact absurd h (by simp)
    | cons c w =>
      obtain ⟨hhead, htail⟩ := List.cons.inj h
      rw [encode_cons, encode_cons, List.length_append, List.length_append,
        hsame c List.mem_cons_self d List.mem_cons_self hhead,
        ih (fun c' hc' d' hd' => hsame c' (List.mem_cons_of_mem c hc') d' (List.mem_cons_of_mem d hd')) htail]

/-- Whole characters are overwritten if the characters of the word are found as such of the same size only. -/
lemma exists_itemRun (hw : w ≠ [])
    (hsame : ∀ c ∈ w, ∀ d, d ∈ cs ∨ d = '*' → folded tolower d = folded tolower c →
      (String.utf8EncodeChar d).length = (String.utf8EncodeChar c).length) :
    ∃ out, ItemRun tolower w cs out ∧ ∀ d ∈ out, d ∈ cs ∨ d = '*' := by
  obtain ⟨size, hsize⟩ : ∃ size, size = (encode cs).length := ⟨_, rfl⟩
  induction size using Nat.strong_induction_on generalizing cs with
  | _ size ih =>
    cases hfound : strUtf8FindNocase tolower (encode w) (encode cs) with
    | none => exact ⟨cs, .done hfound, fun d hd => .inl hd⟩
    | some loc =>
      obtain ⟨before, rest, rfl, rfl, -, hstart, -⟩ := strUtf8FindNocase_encode_some hfound
      obtain ⟨part, rest, rfl, hpart⟩ : ∃ part rest', rest = part ++ rest' ∧
          part.map (folded tolower) = w.map (folded tolower) := by
        refine ⟨rest.take w.length, rest.drop w.length, (List.take_append_drop ..).symm, ?_⟩
        rw [List.map_take, ← List.length_map (folded tolower), ← List.prefix_iff_eq_take.1 hstart]
      have hlen : (encode part).length = (encode w).length :=
        length_encode_of_folded (fun c hc d hd => hsame c hc d (.inl (by simp [hd]))) hpart
      have hpos := length_encode_pos hw
      have hmem : ∀ d, d ∈ List.replicate ((encode w).length - 1) '*' ++ rest →
          d ∈ before ++ (part ++ rest) ∨ d = '*' := by
        intro d hd
        obtain hd | hd := List.mem_append.1 hd
        · exact .inr (List.eq_of_mem_replicate hd)
        · exact .inl (by simp [hd])
      obtain ⟨out, hrun, hout⟩ := ih (encode (List.replicate ((encode w).length - 1) '*' ++ rest)).length
        (by simp only [hsize, encode_append, encode_stars, List.length_append, List.length_replicate]; omega)
        (fun c hc d hd => hsame c hc d (hd.elim (hmem d) .inr)) rfl
      refine ⟨before ++ '*' :: out, .replace hfound hlen hrun, fun d hd => ?_⟩
      obtain hd | hd := List.mem_append.1 hd
      · exact .inl (by simp [hd])
      · obtain rfl | hd := List.mem_cons.1 hd
        · exact .inr rfl
        · exact (hout d hd).elim (hmem d) .inr

theorem exists_censorRun {censorlist : List (List Char)} (hne : ∀ w ∈ censorlist, w ≠ [])
    (hsame : ∀ w ∈ censorlist, ∀ c ∈ w, ∀ d, d ∈ cs ∨ d = '*' → folded tolower d = folded tolower c →
      (String.utf8EncodeChar d).length = (String.utf8EncodeChar c).length) :
    ∃ out, CensorRun tolower censorlist cs out := by
  induction censorlist generalizing cs with
  | nil => exact ⟨cs, .nil⟩
  | cons w censorlist ih =>
    obtain ⟨cs', hitem, hmem⟩ := exists_itemRun (hne w List.mem_cons_self) (hsame w List.mem_cons_self)
    obtain ⟨out, hrun⟩ := ih (fun v hv => hne v (List.mem_cons_of_mem w hv)) fun v hv c hc d hd =>
      hsame v (List.mem_cons_of_mem w hv) c hc d (hd.elim (hmem d) .inr)
    exact ⟨out, .cons hitem hrun⟩

end CGameContext

open CGameContext in
/-- If only whole characters are overwritten, then nothing outside of the buffer is read or written, the text is that of
the message, as far as it fits, with asterisks for some of its characters, and no listed word without asterisks is found
in it. -/
theorem censorMessage_of_run {tolower : ℤ → ℤ} (hstar : ∀ c, tolower c = 42 ↔ c = 42)
    {censorlist : List (List Char)} (hne : ∀ w ∈ censorlist, w ≠ []) {message : List Char}
    (hmessage : ∀ c ∈ message, c.toNat ≠ 0) {buffer : List UInt8} (hbuffer : buffer ≠ []) :
    ∃ copied, copied <+: message ∧ strCopy buffer.length (encode message) = encode copied ∧
      ∀ out, CensorRun tolower censorlist copied out →
        ∃ garbage, censorMessage tolower (censorlist.map encode) (encode message) buffer =
            some (encode out ++ 0 :: garbage) ∧
          (encode out ++ 0 :: garbage).length = buffer.length ∧ Masked copied out ∧
          ∀ w ∈ censorlist, '*' ∉ w → strUtf8FindNocase tolower (encode w) (encode out) = none := by
  obtain ⟨copied, hstart, hcopied⟩ := strUtf8FixTruncation_take message (buffer.length - 1)
  refine ⟨copied, hstart, hcopied, fun out hrun => ?_⟩
  have hcopy : strCopy buffer.length (encode message) = encode copied := hcopied
  have hmasked := masked_of_censorRun hne hrun
  refine ⟨buffer.drop ((encode copied).length + 1), ?_, ?_, hmasked, fun w hw hstar' => ?_⟩
  · rw [censorMessage, hcopy]
    exact foldlM_censorItem hne hrun fun c hc => hmessage c (hstart.subset hc)
  · have hlt : (encode copied).length < buffer.length := by
      have hle : (strCopy buffer.length (encode message)).length ≤ buffer.length - 1 := by
        refine (strUtf8FixTruncation_isPrefix _).length_le.trans ?_
        rw [List.length_take]
        exact min_le_left _ _
      rw [hcopy] at hle
      have := List.length_pos_of_ne_nil hbuffer
      omega
    rw [List.length_append, List.length_cons, List.length_drop, hmasked.length_encode]
    omega
  · exact (strUtf8FindNocase_encode_eq_none (hne w hw)).2 (not_occurs_of_censorRun hstar hne hrun w hw hstar')

section Samples

open CGameContext

lemma itemRun_ba : ItemRun id ['a'] ['b', 'a'] ['b', '*'] := by
  refine @ItemRun.replace id ['a'] ['b'] ['a'] [] [] ?_ rfl (.done ?_)
  · show strUtf8FindNocase id [97] [98, 97] = some 1
    simp [strUtf8FindNocase, matchNocase, strUtf8Decode]
  · show strUtf8FindNocase id [97] [] = none
    rw [strUtf8FindNocase]

theorem censorMessage_of_run_ba : ∃ garbage, censorMessage id [[97]] [98, 97] [0, 0, 0, 0] =
    some ([98, 42] ++ 0 :: garbage) := by
  obtain ⟨copied, -, hcopied, h⟩ := @censorMessage_of_run id (fun _ => Iff.rfl) [['a']] (by decide) ['b', 'a'] (by simp)
    [0, 0, 0, 0] (by decide)
  have hcopy : copied = ['b', 'a'] := encode_injective (hcopied.symm.trans (by decide))
  obtain ⟨garbage, hresult, -⟩ := h ['b', '*'] (hcopy ▸ .cons itemRun_ba .nil)
  exact ⟨garbage, hresult⟩

/-- The lower case letter of the Kelvin sign, which has three bytes, is the letter `k`. -/
def lowerKelvin (code : ℤ) : ℤ := if code = 0x212A then 107 else code

/-- The word `aa*` becomes `a**` if `a*` is censored. -/
lemma itemRun_stars : ItemRun id ['a', '*'] ['a', 'a', '*'] ['a', '*', '*'] := by
  refine @ItemRun.replace id ['a', '*'] ['a'] ['a', '*'] [] ['*'] ?_ rfl (.done ?_)
  · show strUtf8FindNocase id [97, 42] [97, 97, 42] = some 1
    simp [strUtf8FindNocase, matchNocase, strUtf8Decode]
  · show strUtf8FindNocase id [97, 42] [42] = none
    simp [strUtf8FindNocase, matchNocase, strUtf8Decode]

/-- A word with an asterisk can come into the text by censoring, and a word with a character of more bytes than the one
that is found for it is written over the end of the buffer. -/
theorem censorMessage_stars :
    ¬ (∀ tolower : ℤ → ℤ, (∀ c, tolower c = 42 ↔ c = 42) → ∀ (censorlist : List (List Char)) (message : List Char)
        (buffer garbage : List UInt8) (out : List Char), (∀ w ∈ censorlist, w ≠ []) → buffer ≠ [] →
        censorMessage tolower (censorlist.map encode) (encode message) buffer = some (encode out ++ 0 :: garbage) →
        ∀ w ∈ censorlist, (∃ c ∈ w, c ≠ '*') → strUtf8FindNocase tolower (encode w) (encode out) = none) ∧
    ¬ (∀ tolower : ℤ → ℤ, (∀ c, tolower c = 42 ↔ c = 42) → ∀ (censorlist : List (List Char)) (message : List Char)
        (buffer : List UInt8), (∀ w ∈ censorlist, w ≠ []) → buffer ≠ [] →
        censorMessage tolower (censorlist.map encode) (encode message) buffer ≠ none) := by
  constructor
  · intro h
    have hresult : censorMessage id ([['a', '*']].map encode) (encode ['a', 'a', '*']) [0, 0, 0, 0] =
        some (encode ['a', '*', '*'] ++ 0 :: []) := by
      have hcopy : strCopy 4 (encode ['a', 'a', '*']) = encode ['a', 'a', '*'] := by decide
      rw [censorMessage, show ([0, 0, 0, 0] : List UInt8).length = 4 from rfl, hcopy]
      exact foldlM_censorItem (by decide) (.cons itemRun_stars .nil) (by simp)
    have hnone := h id (fun _ => Iff.rfl) [['a', '*']] ['a', 'a', '*'] [0, 0, 0, 0] [] ['a', '*', '*'] (by decide)
      (by decide) hresult ['a', '*'] (by decide) ⟨'a', by decide⟩
    refine (strUtf8FindNocase_encode_eq_none (by decide)).1 hnone ⟨[], [42], ?_⟩
    rfl
  · intro h
    have hkelvin : ∀ c, lowerKelvin c = 42 ↔ c = 42 := by
      intro c
      rw [lowerKelvin]
      split_ifs <;> omega
    refine h lowerKelvin hkelvin [[Char.ofNat 0x212A]] ['k'] [0, 0] (by decide) (by decide) ?_
    have hfound : strUtf8FindNocase lowerKelvin [0xE2, 0x84, 0xAA] [107] = some 0 := by
      simp [strUtf8FindNocase, matchNocase, strUtf8Decode, decodeTail, lowerKelvin]
    have hitem : censorItem lowerKelvin [0xE2, 0x84, 0xAA] [107, 0] = none :=
      @censorItem_of_overrun lowerKelvin _ [107, 0] [107] 0 (by decide) hfound (by decide)
    have hcopy : strCopy 2 (encode ['k']) = [107] := by decide
    rw [censorMessage, show ([0, 0] : List UInt8).length = 2 from rfl, hcopy]
    exact congrArg (Option.bind · _) hitem

end Samples

end DDNet
