import Mathlib.Data.List.DropRight
import Quantframe.LogParser.Dialog

/-!
# Ranks as the game writes them

A mod's rank stands in parentheses after its name, an arcane's is the number of glyphs after it. What `parseLine`
makes of both.
-/

namespace Quantframe.LogParser

open Lib Trades

/-! ### Trimming -/

section Trim

variable {p : Char → Bool} {text front back : Text}

theorem trimEndMatches_append (hback : ∀ c ∈ back, p c = true) (front : Text) :
    trimEndMatches p (front ++ back) = trimEndMatches p front := by
  rw [trimEndMatches, trimEndMatches, List.reverse_append, List.dropWhile_append_of_pos]
  exact fun c hc => hback c (List.mem_reverse.mp hc)

theorem trimEndMatches_concat {c : Char} (hc : p c = false) (front : Text) :
    trimEndMatches p (front ++ [c]) = front ++ [c] :=
  List.rdropWhile_concat_neg p front c (by rw [hc]; exact Bool.false_ne_true)

theorem trim_dropWhile (text : Text) : trim (text.dropWhile isWhitespace) = trim text := by
  rw [trim, trim, List.dropWhile_idempotent]

/-- Dropping from the front what has no such front. -/
theorem dropWhile_trimEndMatches {q : Char → Bool} (h : text.dropWhile p = text) :
    (trimEndMatches q text).dropWhile p = trimEndMatches q text := by
  obtain ⟨rest, hrest⟩ : trimEndMatches q text <+: text := List.rdropWhile_prefix q text
  cases htrimmed : trimEndMatches q text with
  | nil => rfl
  | cons c kept =>
      rw [htrimmed, List.cons_append] at hrest
      rw [← hrest] at h
      by_cases hc : p c = true
      · rw [List.dropWhile_cons_of_pos hc] at h
        have hshorter := (List.dropWhile_suffix p (l := kept ++ rest)).length_le
        rw [h, List.length_cons] at hshorter
        omega
      · exact List.dropWhile_cons_of_neg hc

theorem trim_trim (text : Text) : trim (trim text) = trim text := by
  have hfront : (trim text).dropWhile isWhitespace = trim text :=
    dropWhile_trimEndMatches (List.dropWhile_idempotent isWhitespace text)
  rw [trim, hfront]
  exact List.rdropWhile_idempotent isWhitespace _

/-- What stands before a mark that ends in no blank is trimmed at its front only. -/
theorem trim_append_concat {c : Char} (hc : isWhitespace c = false) (hfront : front.dropWhile isWhitespace ≠ []) :
    trim (front ++ (back ++ [c])) = front.dropWhile isWhitespace ++ (back ++ [c]) := by
  have hdropped : (front ++ (back ++ [c])).dropWhile isWhitespace = front.dropWhile isWhitespace ++ (back ++ [c]) := by
    rw [List.dropWhile_append, if_neg fun h => hfront (List.isEmpty_iff.mp h)]
  rw [trim, hdropped, ← List.append_assoc]
  exact trimEndMatches_concat hc _

theorem trim_blank_append (hfront : front.dropWhile isWhitespace = []) (back : Text) :
    trim (front ++ back) = trim back := by
  rw [trim, trim, List.dropWhile_append, if_pos (List.isEmpty_iff.mpr hfront)]

theorem trim_eq_nil_iff : trim text = [] ↔ text.dropWhile isWhitespace = [] := by
  constructor
  · intro h
    have hall : ∀ c ∈ text.dropWhile isWhitespace, isWhitespace c = true := List.rdropWhile_eq_nil_iff.mp h
    rw [← List.dropWhile_idempotent]
    exact List.dropWhile_eq_nil_iff.mpr hall
  · intro h
    rw [trim, h]
    rfl

end Trim

theorem isWhitespace_of_isPrivateUse {c : Char} (h : isPrivateUse c = true) : isWhitespace c = false := by
  simp only [isPrivateUse, Bool.and_eq_true, decide_eq_true_eq, UInt32.le_iff_toNat_le] at h
  simp only [isWhitespace, Bool.or_eq_false_iff, Bool.and_eq_false_imp, decide_eq_true_eq, decide_eq_false_iff_not,
    beq_eq_false_iff_ne, ne_eq, UInt32.le_iff_toNat_le, ← UInt32.toNat_inj]
  simp only [UInt32.reduceToNat] at h ⊢
  omega

/-! ### Searching from the end -/

/-- The last occurrence of a word whose last character does not come again. -/
theorem rfind_append {c : Char} {back : Text} (hc : c ∉ back) (front word : Text) :
    rfind (word ++ [c]) (front ++ (word ++ [c]) ++ back) = some front.length := by
  have hreverse : (front ++ (word ++ [c]) ++ back).reverse =
      back.reverse ++ ((word ++ [c]).reverse ++ front.reverse) := by
    rw [List.reverse_append, List.reverse_append]
  have hfound : search (word ++ [c]).reverse (front ++ (word ++ [c]) ++ back).reverse = some back.length := by
    rw [hreverse]
    refine search_of_occurs ?_ fun j hj hoccurs => ?_
    · have hlength : back.length = back.reverse.length := List.length_reverse.symm
      rw [hlength, List.drop_left]
      exact List.prefix_append _ _
    · rw [List.reverse_append, List.reverse_singleton, List.singleton_append, List.cons_prefix_iff] at hoccurs
      obtain ⟨rest, hrest, -⟩ := hoccurs
      have hat : (back.reverse)[j]? = some c := by
        have hlength : j < back.reverse.length := by rw [List.length_reverse]; exact hj
        rw [← List.getElem?_append_left hlength, ← List.head?_drop, hrest, List.head?_cons]
      exact hc (List.mem_reverse.mp (List.mem_of_getElem? hat))
  rw [rfind, hfound, Option.map_some]
  simp only [List.length_append]
  congr 1
  omega

theorem rfind_eq_none {word text : Text} : rfind word text = none ↔ ¬ word <:+: text := by
  rw [rfind, Option.map_eq_none_iff, search_none, List.reverse_infix]

/-! ### Digits -/

theorem digitsValue_toDigits (n : Nat) : digitsValue (Nat.toDigits 10 n) = n := Nat.ofDigitChars_ten_toDigits

theorem isDigit_toDigits (n : Nat) : ∀ c ∈ Nat.toDigits 10 n, c.isDigit = true :=
  fun _ hc => Nat.isDigit_of_mem_toDigits (by decide) (by decide) hc

theorem isWhitespace_of_isDigit {c : Char} (h : c.isDigit = true) : isWhitespace c = false := by
  have hzero : '0'.val.toNat = 48 := rfl
  have hnine : '9'.val.toNat = 57 := rfl
  simp only [Char.isDigit, Bool.and_eq_true, decide_eq_true_eq, ge_iff_le, UInt32.le_iff_toNat_le] at h
  simp only [isWhitespace, Bool.or_eq_false_iff, Bool.and_eq_false_imp, decide_eq_true_eq, decide_eq_false_iff_not,
    beq_eq_false_iff_ne, ne_eq, UInt32.le_iff_toNat_le, ← UInt32.toNat_inj]
  simp only [UInt32.reduceToNat] at h ⊢
  omega

theorem parseI64_toDigits {n : Nat} (hfits : (n : Int) ≤ i64Max) : parseI64 (Nat.toDigits 10 n) = some (n : Int) := by
  have hne : Nat.toDigits 10 n ≠ [] := Nat.toDigits_ne_nil
  have hdigits := isDigit_toDigits n
  have hvalue := digitsValue_toDigits n
  generalize Nat.toDigits 10 n = digits at hne hdigits hvalue
  cases digits with
  | nil => exact absurd rfl hne
  | cons c digits =>
      have hfirst := hdigits c List.mem_cons_self
      have hminus : c ≠ '-' := by rintro rfl; exact absurd hfirst (by decide)
      have hplus : c ≠ '+' := by rintro rfl; exact absurd hfirst (by decide)
      have hall : (c :: digits).all Char.isDigit = true := List.all_eq_true.mpr hdigits
      have hrange : i64Min ≤ (n : Int) ∧ (n : Int) ≤ i64Max := by
        rw [i64Min]
        omega
      unfold parseI64
      split
      next negative rest hsign =>
        split at hsign
        next heq => exact absurd (List.cons.inj heq).1 hminus
        next heq => exact absurd (List.cons.inj heq).1 hplus
        next =>
          cases hsign
          rw [if_pos ⟨List.cons_ne_nil _ _, hall⟩]
          simp only [Bool.false_eq_true, if_false, hvalue]
          exact if_pos hrange

theorem trim_of_forall {text : Text} (h : ∀ c ∈ text, isWhitespace c = false) : trim text = text := by
  have hfront : text.dropWhile isWhitespace = text := by
    refine List.dropWhile_eq_self_iff.mpr fun hlength => ?_
    rw [h _ (List.getElem_mem hlength)]
    exact Bool.false_ne_true
  rw [trim, hfront]
  refine List.rdropWhile_eq_self_iff.mpr fun hne => ?_
  rw [h _ (List.getLast_mem hne)]
  exact Bool.false_ne_true

theorem trim_toDigits (n : Nat) : trim (Nat.toDigits 10 n) = Nat.toDigits 10 n :=
  trim_of_forall fun c hc => isWhitespace_of_isDigit (isDigit_toDigits n c hc)

/-! ### What is written -/

/-- The rank of a mod, after its name. -/
def rankMark (word : Text) (rank : Nat) : Text :=
  " (".toList ++ (word ++ " RANK ".toList ++ Nat.toDigits 10 rank ++ [')'])

/-- How the game writes a rank. -/
inductive RankKind where
  | mod
  | arcane
  deriving DecidableEq, Repr

/-- A line that the game writes for a name with a rank. An arcane's name ends in no glyph and carries no mod rank. -/
inductive Written (name : Text) (rank : Nat) : RankKind → Text → Prop
  | mod (word : Text) (hword : '(' ∉ word) : Written name rank .mod (name ++ rankMark word rank)
  | arcane (glyphs : Text) (hcount : glyphs.length = rank) (hglyphs : ∀ c ∈ glyphs, isPrivateUse c = true)
      (hname : (stripGlyphs (trim name)).2 = 0) (hplain : rankSuffix (trim name) = none) :
      Written name rank .arcane (name ++ glyphs)

section ParseLine

variable {name word glyphs line : Text} {rank : Nat}

theorem parseLine_of_platinum (h : platinumPrefix <+: trim line) : (parseLine line).rank = none := by
  rw [parseLine, stripPrefix, if_pos h]

theorem parseLine_of_goods (h : ¬ platinumPrefix <+: trim line) :
    parseLine line =
      if (stripGlyphs (trim line)).2 > 0 then
        ⟨String.ofList (trim (stripGlyphs (trim line)).1), 1, some (stripGlyphs (trim line)).2⟩
      else (rankSuffix (trim (stripGlyphs (trim line)).1)).getD
        ⟨String.ofList (trim (stripGlyphs (trim line)).1), 1, none⟩ := by
  rw [parseLine, stripPrefix, if_neg h]

theorem stripGlyphs_eq_zero_iff {text : Text} : (stripGlyphs text).2 = 0 ↔ trimEndMatches isPrivateUse text = text := by
  have hprefix : trimEndMatches isPrivateUse text <+: text := List.rdropWhile_prefix isPrivateUse text
  rw [stripGlyphs]
  dsimp only
  constructor
  · intro h
    exact hprefix.eq_of_length (le_antisymm hprefix.length_le (by omega))
  · intro h
    rw [h, Nat.sub_self]

theorem stripGlyphs_of_mark (front : Text) : stripGlyphs (front ++ [')']) = (front ++ [')'], 0) := by
  rw [stripGlyphs, trimEndMatches_concat (by decide), Nat.sub_self]

theorem paren_notMem_mark (rank : Nat) (hword : '(' ∉ word) :
    '(' ∉ word ++ " RANK ".toList ++ Nat.toDigits 10 rank ++ [')'] := by
  simp only [List.mem_append, not_or]
  refine ⟨⟨⟨hword, by decide⟩, fun hdigit => ?_⟩, by decide⟩
  exact absurd (isDigit_toDigits rank _ hdigit) (by decide)

/-- The mark gives its rank to whatever stands before it. -/
theorem rankSuffix_mark (hword : '(' ∉ word) (hfits : (rank : Int) ≤ i64Max) (front : Text) :
    rankSuffix (front ++ rankMark word rank) = some ⟨String.ofList (trim front), 1, some rank⟩ := by
  have hopen : rfind " (".toList (front ++ rankMark word rank) = some front.length := by
    have hfound := rfind_append (paren_notMem_mark rank hword) front [' ']
    rw [List.append_assoc] at hfound
    exact hfound
  have hbody : (front ++ rankMark word rank).drop (front.length + 2) =
      word ++ " RANK ".toList ++ Nat.toDigits 10 rank ++ [')'] := by
    rw [rankMark, List.drop_append, List.drop_eq_nil_of_le (by omega), List.nil_append,
      show front.length + 2 - front.length = 2 by omega]
    rfl
  have hinner : stripSuffix [')'] (word ++ " RANK ".toList ++ Nat.toDigits 10 rank ++ [')']) =
      some (word ++ " RANK ".toList ++ Nat.toDigits 10 rank) := by
    rw [stripSuffix, if_pos (List.suffix_append _ _), List.length_append, List.length_singleton, Nat.add_sub_cancel,
      List.take_left]
  have hspace : ' ' ∉ Nat.toDigits 10 rank := fun h => absurd (isDigit_toDigits rank _ h) (by decide)
  have hsplit : rsplitOnce " RANK ".toList (word ++ " RANK ".toList ++ Nat.toDigits 10 rank) =
      some (word, Nat.toDigits 10 rank) := by
    have hfound : rfind " RANK ".toList (word ++ " RANK ".toList ++ Nat.toDigits 10 rank) = some word.length :=
      rfind_append hspace word " RANK".toList
    have hlength : word.length + " RANK ".toList.length = (word ++ " RANK ".toList).length := List.length_append.symm
    rw [rsplitOnce, hfound, Option.map_some, hlength, List.drop_left, List.append_assoc, List.take_left]
  rw [rankSuffix, hopen, Option.bind_some, hbody, hinner, Option.bind_some, hsplit, Option.bind_some]
  dsimp only
  rw [trim_toDigits, parseI64_toDigits hfits, Option.map_some, List.take_left]

theorem trim_append_mark (word : Text) (rank : Nat) (hname : trim name ≠ []) :
    trim (name ++ rankMark word rank) = name.dropWhile isWhitespace ++ rankMark word rank := by
  rw [rankMark, ← List.append_assoc " (".toList]
  exact trim_append_concat (by decide) fun h => hname (trim_eq_nil_iff.mpr h)

/-- A mod's line gives its name and its rank. -/
theorem parseLine_mod (hword : '(' ∉ word) (hfits : (rank : Int) ≤ i64Max) (hname : trim name ≠ [])
    (hgoods : ¬ platinumPrefix <+: trim (name ++ rankMark word rank)) :
    parseLine (name ++ rankMark word rank) = ⟨String.ofList (trim name), 1, some rank⟩ := by
  have htrim := trim_append_mark word rank hname
  have hstrip : stripGlyphs (trim (name ++ rankMark word rank)) = (trim (name ++ rankMark word rank), 0) := by
    rw [htrim, rankMark, ← List.append_assoc " (".toList, ← List.append_assoc]
    exact stripGlyphs_of_mark _
  rw [parseLine_of_goods hgoods, hstrip, if_neg (Nat.lt_irrefl 0), trim_trim, htrim, rankSuffix_mark hword hfits,
    trim_dropWhile, Option.getD_some]

/-- Without a name the mark itself is read as the name. -/
theorem parseLine_blank_mod (hword : '(' ∉ word) (hname : trim name = []) :
    (parseLine (name ++ rankMark word rank)).rank = none := by
  have hbody := paren_notMem_mark rank hword
  have htrim : trim (name ++ rankMark word rank) =
      '(' :: (word ++ " RANK ".toList ++ Nat.toDigits 10 rank ++ [')']) := by
    rw [trim_blank_append (trim_eq_nil_iff.mp hname), trim]
    change trimEndMatches isWhitespace ('(' :: (word ++ " RANK ".toList ++ Nat.toDigits 10 rank ++ [')'])) = _
    rw [← List.cons_append]
    exact trimEndMatches_concat (by decide) _
  have habsent : rfind " (".toList (trim (name ++ rankMark word rank)) = none := by
    rw [htrim, rfind_eq_none]
    rintro ⟨front, back, hfound⟩
    cases front with
    | nil => exact absurd (List.cons.inj hfound).1 (by decide)
    | cons c front =>
        have hrest := (List.cons.inj hfound).2
        apply hbody
        rw [← hrest]
        exact List.mem_append_left _ (List.mem_append_right _ (by decide))
  by_cases hplatinum : platinumPrefix <+: trim (name ++ rankMark word rank)
  · exact parseLine_of_platinum hplatinum
  · have hstrip : stripGlyphs (trim (name ++ rankMark word rank)) = (trim (name ++ rankMark word rank), 0) := by
      rw [htrim, ← List.cons_append]
      exact stripGlyphs_of_mark _
    rw [parseLine_of_goods hplatinum, hstrip, if_neg (Nat.lt_irrefl 0), trim_trim, rankSuffix, habsent]
    rfl

theorem isWhitespace_glyphs (hglyphs : ∀ c ∈ glyphs, isPrivateUse c = true) : ∀ c ∈ glyphs, isWhitespace c = false :=
  fun c hc => isWhitespace_of_isPrivateUse (hglyphs c hc)

theorem trim_append_glyphs (hglyphs : ∀ c ∈ glyphs, isPrivateUse c = true) (hsome : glyphs ≠ []) :
    trim (name ++ glyphs) = name.dropWhile isWhitespace ++ glyphs := by
  by_cases hblank : name.dropWhile isWhitespace = []
  · rw [trim_blank_append hblank, hblank, List.nil_append, trim_of_forall (isWhitespace_glyphs hglyphs)]
  · rw [← List.dropLast_append_getLast hsome]
    exact trim_append_concat (isWhitespace_glyphs hglyphs _ (List.getLast_mem hsome)) hblank

/-- A name that ends in no glyph still ends in none before it is trimmed at its end. -/
theorem trimEndMatches_name (hname : (stripGlyphs (trim name)).2 = 0) :
    trimEndMatches isPrivateUse (name.dropWhile isWhitespace) = name.dropWhile isWhitespace := by
  rw [stripGlyphs_eq_zero_iff, trim] at hname
  by_cases hblank : ∀ hne : name.dropWhile isWhitespace ≠ [],
      ¬ isWhitespace ((name.dropWhile isWhitespace).getLast hne) = true
  · have hends : trimEndMatches isWhitespace (name.dropWhile isWhitespace) = name.dropWhile isWhitespace :=
      List.rdropWhile_eq_self_iff.mpr hblank
    rw [hends] at hname
    exact hname
  · obtain ⟨hne, hlast⟩ := not_forall.mp hblank
    refine List.rdropWhile_eq_self_iff.mpr fun hne' hglyph => hlast ?_
    rw [isWhitespace_of_isPrivateUse hglyph]
    exact Bool.false_ne_true

/-- An arcane's line gives its name, and the number of its glyphs where there are any. -/
theorem parseLine_arcane (hglyphs : ∀ c ∈ glyphs, isPrivateUse c = true) (hname : (stripGlyphs (trim name)).2 = 0)
    (hsome : glyphs ≠ []) (hgoods : ¬ platinumPrefix <+: trim (name ++ glyphs)) :
    parseLine (name ++ glyphs) = ⟨String.ofList (trim name), 1, some glyphs.length⟩ := by
  have hstrip : stripGlyphs (trim (name ++ glyphs)) = (name.dropWhile isWhitespace, glyphs.length) := by
    rw [trim_append_glyphs hglyphs hsome, stripGlyphs, trimEndMatches_append hglyphs, trimEndMatches_name hname,
      List.length_append, Nat.add_sub_cancel_left]
  rw [parseLine_of_goods hgoods, hstrip, if_pos (List.length_pos_of_ne_nil hsome), trim_dropWhile]

theorem parseLine_bare (hname : (stripGlyphs (trim name)).2 = 0) (hplain : rankSuffix (trim name) = none) :
    (parseLine name).rank = none := by
  by_cases hplatinum : platinumPrefix <+: trim name
  · exact parseLine_of_platinum hplatinum
  · have hstrip := stripGlyphs_eq_zero_iff.mp hname
    rw [parseLine_of_goods hplatinum, hname, if_neg (Nat.lt_irrefl 0), stripGlyphs, hstrip, trim_trim, hplain]
    rfl

end ParseLine

end Quantframe.LogParser
