import Mathlib.Data.List.Basic

/-!
# Texts by byte

An offset into a text counts bytes of its UTF-8 form. A slice that ends inside a character or past the end of the
text does not exist.
-/

namespace Quantframe.Lib

def byteLen : List Char → Nat
  | [] => 0
  | c :: text => c.utf8Size + byteLen text

/-- `&text[..n]`. -/
def sliceTo : List Char → Nat → Option (List Char)
  | _, 0 => some []
  | [], _ + 1 => none
  | c :: text, n + 1 => if c.utf8Size ≤ n + 1 then (sliceTo text (n + 1 - c.utf8Size)).map (c :: ·) else none

/-- A character ends at the offset. -/
def Boundary (text : List Char) (n : Nat) : Prop := ∃ front back, text = front ++ back ∧ byteLen front = n

/-- A text that exceeds its limit may be cut at `cut`. -/
def MayCut (limit cut : Nat) (text : List Char) : Prop := limit < byteLen text → Boundary text cut

section Offsets

variable {front marker back text : List Char} {n : Nat}

theorem byteLen_append (front back : List Char) : byteLen (front ++ back) = byteLen front + byteLen back := by
  induction front with
  | nil => rw [List.nil_append, byteLen, Nat.zero_add]
  | cons c front ih => rw [List.cons_append, byteLen, byteLen, ih, Nat.add_assoc]

theorem byteLen_eq_zero : byteLen text = 0 ↔ text = [] := by
  cases text with
  | nil => exact ⟨fun _ => rfl, fun _ => rfl⟩
  | cons c text =>
      have hpos := c.utf8Size_pos
      rw [byteLen]
      exact ⟨fun h => absurd h (by omega), fun h => by cases h⟩

theorem sliceTo_append (front back : List Char) : sliceTo (front ++ back) (byteLen front) = some front := by
  induction front with
  | nil => rw [List.nil_append, byteLen, sliceTo]
  | cons c front ih =>
      have hpos := c.utf8Size_pos
      obtain ⟨m, hm⟩ : ∃ m, byteLen (c :: front) = m + 1 := ⟨byteLen (c :: front) - 1, by rw [byteLen]; omega⟩
      have hrest : m + 1 - c.utf8Size = byteLen front := by rw [← hm, byteLen]; omega
      have hfits : c.utf8Size ≤ m + 1 := by rw [← hm, byteLen]; omega
      rw [hm, List.cons_append, sliceTo, if_pos hfits, hrest, ih, Option.map_some]

theorem sliceTo_eq_some (h : sliceTo text n = some front) : (∃ back, text = front ++ back) ∧ byteLen front = n := by
  induction text generalizing n front with
  | nil =>
      cases n with
      | zero =>
          rw [sliceTo, Option.some.injEq] at h
          rw [← h]
          exact ⟨⟨[], rfl⟩, rfl⟩
      | succ n => cases h
  | cons c text ih =>
      cases n with
      | zero =>
          rw [sliceTo, Option.some.injEq] at h
          rw [← h]
          exact ⟨⟨c :: text, rfl⟩, rfl⟩
      | succ n =>
          rw [sliceTo] at h
          split at h
          · next hfits =>
              obtain ⟨rest, hrest, rfl⟩ := Option.map_eq_some_iff.mp h
              obtain ⟨⟨back, hback⟩, hlen⟩ := ih hrest
              rw [byteLen, hlen, hback]
              exact ⟨⟨back, rfl⟩, by omega⟩
          · cases h

/-- A slice exists when it ends between characters. -/
theorem sliceTo_isSome_iff : (sliceTo text n).isSome = true ↔ Boundary text n := by
  constructor
  · intro h
    obtain ⟨front, hfront⟩ := Option.isSome_iff_exists.mp h
    obtain ⟨⟨back, hback⟩, hlen⟩ := sliceTo_eq_some hfront
    exact ⟨front, back, hback, hlen⟩
  · rintro ⟨front, back, rfl, rfl⟩
    rw [sliceTo_append, Option.isSome_some]

instance (text : List Char) (n : Nat) : Decidable (Boundary text n) := decidable_of_iff _ sliceTo_isSome_iff

instance (limit cut : Nat) (text : List Char) : Decidable (MayCut limit cut text) :=
  inferInstanceAs (Decidable (_ → _))

theorem boundary_zero (text : List Char) : Boundary text 0 := ⟨[], text, rfl, rfl⟩

theorem boundary_front (h : n ≤ byteLen front) (back : List Char) : Boundary (front ++ back) n ↔ Boundary front n := by
  constructor
  · rintro ⟨left, right, heq, rfl⟩
    rcases List.append_eq_append_iff.mp heq with ⟨more, hleft, hback⟩ | ⟨more, hfront, hright⟩
    · have hmore : byteLen more = 0 := by
        rw [hleft, byteLen_append] at h
        omega
      rw [byteLen_eq_zero.mp hmore, List.append_nil] at hleft
      exact ⟨front, [], (List.append_nil front).symm, by rw [hleft]⟩
    · exact ⟨left, more, hfront, rfl⟩
  · rintro ⟨left, right, rfl, hlen⟩
    exact ⟨left, right ++ back, List.append_assoc left right back, hlen⟩

theorem boundary_back (h : byteLen front ≤ n) (back : List Char) :
    Boundary (front ++ back) n ↔ Boundary back (n - byteLen front) := by
  constructor
  · rintro ⟨left, right, heq, rfl⟩
    rcases List.append_eq_append_iff.mp heq with ⟨more, hleft, hback⟩ | ⟨more, hfront, hright⟩
    · refine ⟨more, right, hback, ?_⟩
      rw [hleft, byteLen_append]
      omega
    · have hmore : byteLen more = 0 := by
        rw [hfront, byteLen_append] at h
        omega
      have hlen : byteLen left - byteLen front = 0 := by
        rw [hfront, byteLen_append]
        omega
      rw [hlen]
      exact boundary_zero back
  · rintro ⟨left, right, rfl, hlen⟩
    refine ⟨front ++ left, right, (List.append_assoc front left right).symm, ?_⟩
    rw [byteLen_append]
    omega

/-- Every offset into a text of one-byte characters. -/
theorem boundary_ascii (hascii : ∀ c ∈ text, c.utf8Size = 1) (h : n ≤ byteLen text) : Boundary text n := by
  induction text generalizing n with
  | nil =>
      rw [Nat.le_zero.mp h]
      exact boundary_zero []
  | cons c text ih =>
      have hc := hascii c List.mem_cons_self
      cases n with
      | zero => exact boundary_zero _
      | succ n =>
          rw [byteLen, hc] at h
          obtain ⟨front, back, hback, hlen⟩ := ih (fun d hd => hascii d (List.mem_cons_of_mem c hd))
            (n := n) (by omega)
          refine ⟨c :: front, back, by rw [hback, List.cons_append], ?_⟩
          rw [byteLen, hc, hlen, Nat.add_comm]

/-- The offsets of a text into which one-byte characters were put. -/
theorem boundary_insert (hascii : ∀ c ∈ marker, c.utf8Size = 1) (back : List Char) (n : Nat) :
    Boundary (front ++ (marker ++ back)) n ↔
      (n ≤ byteLen front → Boundary (front ++ back) n) ∧
        (byteLen front + byteLen marker ≤ n → Boundary (front ++ back) (n - byteLen marker)) := by
  by_cases hbefore : n ≤ byteLen front
  · rw [boundary_front hbefore, boundary_front hbefore]
    constructor
    · intro hboundary
      refine ⟨fun _ => hboundary, fun hafter => ?_⟩
      have hnone : byteLen marker = 0 := by omega
      rw [hnone, Nat.sub_zero, boundary_front hbefore]
      exact hboundary
    · intro h
      exact h.1 hbefore
  · have hfront : byteLen front ≤ n := by omega
    rw [boundary_back hfront]
    by_cases hafter : byteLen front + byteLen marker ≤ n
    · have hpos : n - byteLen marker - byteLen front = n - byteLen front - byteLen marker := by omega
      rw [boundary_back (by omega : byteLen marker ≤ n - byteLen front),
        boundary_back (by omega : byteLen front ≤ n - byteLen marker), hpos]
      exact ⟨fun h => ⟨fun h' => absurd h' hbefore, fun _ => h⟩, fun h => h.2 hafter⟩
    · have hinside : n - byteLen front ≤ byteLen marker := by omega
      refine ⟨fun _ => ⟨fun h => absurd h hbefore, fun h => absurd h hafter⟩, fun _ => ?_⟩
      rw [boundary_front hinside]
      exact boundary_ascii hascii hinside

end Offsets

end Quantframe.Lib
