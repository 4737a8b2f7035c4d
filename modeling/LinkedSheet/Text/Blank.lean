/-!
The characters that count as blank, and trimming a text of them. The class is the Unicode property
`White_Space`; no visible ASCII character belongs to it. Trimming takes away the blanks around a text
and nothing of a text without any.
-/
namespace LinkedSheet.Text

def isBlank (c : Char) : Bool :=
  let n := c.toNat
  (9 ≤ n && n ≤ 13) || n == 0x20 || n == 0x85 || n == 0xA0 || n == 0x1680 ||
    (0x2000 ≤ n && n ≤ 0x200A) || n == 0x2028 || n == 0x2029 || n == 0x202F || n == 0x205F ||
    n == 0x3000

theorem isBlank_eq_false_of_visible {c : Char} (low : 33 ≤ c.toNat) (high : c.toNat ≤ 126) :
    isBlank c = false := by
  simp [isBlank]
  omega

theorem isBlank_eq_false_of_isDigit {c : Char} (decimal : c.isDigit = true) :
    isBlank c = false := by
  obtain ⟨low, high⟩ := Char.isDigit_iff_toNat.1 decimal
  exact isBlank_eq_false_of_visible (Nat.le_trans (by decide) low) (Nat.le_trans high (by decide))

def trimStart (s : List Char) : List Char :=
  s.dropWhile isBlank

def trimEnd (s : List Char) : List Char :=
  (s.reverse.dropWhile isBlank).reverse

def trim (s : List Char) : List Char :=
  trimEnd (trimStart s)

theorem trimEnd_isPrefix (s : List Char) : trimEnd s <+: s := by
  have h := List.dropWhile_suffix (l := s.reverse) isBlank
  simpa [trimEnd] using List.reverse_prefix.mpr h

theorem trimStart_append {blanks : List Char} (blank : ∀ c ∈ blanks, isBlank c = true)
    (s : List Char) : trimStart (blanks ++ s) = trimStart s :=
  List.dropWhile_append_of_pos blank

theorem trimEnd_append {blanks : List Char} (blank : ∀ c ∈ blanks, isBlank c = true)
    (s : List Char) : trimEnd (s ++ blanks) = trimEnd s := by
  rw [trimEnd, List.reverse_append, List.dropWhile_append_of_pos fun c member =>
    blank c (List.mem_reverse.1 member), trimEnd]

theorem trimStart_cons {c : Char} (solid : isBlank c = false) (s : List Char) :
    trimStart (c :: s) = c :: s :=
  List.dropWhile_cons_of_neg (by simp [solid])

theorem trimEnd_of_solid {s : List Char} (solid : ∀ c ∈ s, isBlank c = false) : trimEnd s = s := by
  have kept : s.reverse.dropWhile isBlank = s.reverse := by
    cases reversed : s.reverse with
    | nil => rfl
    | cons c rest =>
      exact trimStart_cons (solid c (List.mem_reverse.1 (reversed ▸ List.mem_cons_self))) rest
  rw [trimEnd, kept, List.reverse_reverse]

theorem trim_append {front back s : List Char} (frontBlank : ∀ c ∈ front, isBlank c = true)
    (backBlank : ∀ c ∈ back, isBlank c = true) (solid : ∀ c ∈ s, isBlank c = false) :
    trim (front ++ (s ++ back)) = s := by
  rw [trim, trimStart_append frontBlank]
  cases s with
  | nil =>
    have nothing := trimStart_append backBlank []
    rw [List.append_nil] at nothing
    rw [List.nil_append, nothing]
    rfl
  | cons c s =>
    rw [List.cons_append, trimStart_cons (solid c List.mem_cons_self), ← List.cons_append,
      trimEnd_append backBlank, trimEnd_of_solid solid]

theorem trim_of_solid {s : List Char} (solid : ∀ c ∈ s, isBlank c = false) : trim s = s := by
  simpa using trim_append (List.forall_mem_nil _) (List.forall_mem_nil _) solid

end LinkedSheet.Text
