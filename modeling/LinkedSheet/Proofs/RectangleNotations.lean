import LinkedSheet.Proofs.ReferenceText
import LinkedSheet.Proofs.SelectedCells

/-!
The notations for one rectangle. Two opposite corners can be given by references, in one text with a
colon between or as the ends of a box, or by indices counted from zero, and a part of one column by
its letters and two rows, the first counted from one and the last from zero. All of them have the
same region and select the same cells, or are refused alike, on every sheet.
-/
namespace LinkedSheet

open Text (isBlank)

theorem Text.isBlank_eq_false_of_isAlpha {c : Char} (alphabetic : c.isAlpha = true) :
    isBlank c = false := by
  simp only [Cell.isAlpha_iff, Char.le_def, UInt32.le_iff_toNat_le] at alphabetic
  change 65 ≤ c.toNat ∧ c.toNat ≤ 90 ∨ 97 ≤ c.toNat ∧ c.toNat ≤ 122 at alphabetic
  exact isBlank_eq_false_of_visible (by omega) (by omega)

theorem Cell.isAlpha_or_isDigit_of_mem_toText (cell : Cell) :
    ∀ c ∈ cell.toText.toList, c.isAlpha = true ∨ c.isDigit = true := by
  have spelled := spells_toText cell
  rw [spelled.toList_eq, List.forall_mem_append]
  exact ⟨fun c member => .inl (spelled.isAlpha c member),
    fun c member => .inr (spelled.isDigit c member)⟩

theorem Cell.ofReference?_trim {cell : Cell} (within : cell.InBounds) {front back : List Char}
    (frontBlank : ∀ c ∈ front, isBlank c = true) (backBlank : ∀ c ∈ back, isBlank c = true) :
    ofReference? (Text.trim (front ++ (cell.toText.toList ++ back))) = some cell := by
  have solid : ∀ c ∈ cell.toText.toList, isBlank c = false := fun c member =>
    (cell.isAlpha_or_isDigit_of_mem_toText c member).elim Text.isBlank_eq_false_of_isAlpha
      Text.isBlank_eq_false_of_isDigit
  rw [Text.trim_append frontBlank backBlank solid]
  exact ofText?_toText within

theorem parseRange?_eq_some {a b : Cell} {text : String} {front back : List Char}
    (split : text.toList = front ++ ':' :: back) (no_colon : ':' ∉ front)
    (frontReads : Cell.ofReference? (Text.trim front) = some a)
    (backReads : Cell.ofReference? (Text.trim back) = some b) :
    parseRange? text = some (a, b) := by
  have before : ∀ c ∈ front, (c != ':') = true := by
    intro c member
    rw [bne_iff_ne]
    rintro rfl
    exact no_colon member
  have upToColon : text.toList.takeWhile (· != ':') = front := by
    rw [split, List.takeWhile_append_of_pos before]
    simp
  have fromColon : text.toList.dropWhile (· != ':') = ':' :: back := by
    rw [split, List.dropWhile_append_of_pos before]
    rfl
  simp only [parseRange?, upToColon, fromColon, frontReads, backReads]

theorem Region.of_comm (a b : Cell) : Region.of a b = Region.of b a := by
  simp only [of, min_comm, max_comm]

namespace Selection

/-- The ways to give the rectangle with two opposite corners. -/
inductive Outlines : Cell → Cell → Selection → Prop
  /-- Both references in one text, each with blanks around it or not. -/
  | range (a b : Cell) {w x y z : String}
      (blank : ∀ c ∈ (w ++ x ++ y ++ z).toList, isBlank c = true) :
      Outlines a b (.range (w ++ a.toText ++ x ++ ":" ++ y ++ b.toText ++ z))
  | references (a b : Cell) :
      Outlines a b (.box (.reference a.toText) (.reference b.toText))
  | indices (a b : Cell) : Outlines a b (fixedBox a b)
  /-- Cells of one column, the first of them not below the last one. -/
  | column (col : Nat) {first last : Nat} (le : first ≤ last) :
      Outlines ⟨first, col⟩ ⟨last, col⟩
        (.column (Cell.columnText col) (first + 1) (some (.fixed last)))
  /-- The corners can be exchanged. -/
  | swap {a b : Cell} {selection : Selection} (outlines : Outlines b a selection) :
      Outlines a b selection

variable {a b : Cell} {selection other : Selection}

theorem parseRange?_toText (aWithin : a.InBounds) (bWithin : b.InBounds) {w x y z : String}
    (blank : ∀ c ∈ (w ++ x ++ y ++ z).toList, isBlank c = true) :
    parseRange? (w ++ a.toText ++ x ++ ":" ++ y ++ b.toText ++ z) = some (a, b) := by
  simp only [String.toList_append, List.forall_mem_append] at blank
  obtain ⟨⟨⟨wBlank, xBlank⟩, yBlank⟩, zBlank⟩ := blank
  have split : (w ++ a.toText ++ x ++ ":" ++ y ++ b.toText ++ z).toList =
      (w.toList ++ (a.toText.toList ++ x.toList)) ++
        ':' :: (y.toList ++ (b.toText.toList ++ z.toList)) := by
    simp [String.toList_append]
  have no_colon : ':' ∉ w.toList ++ (a.toText.toList ++ x.toList) := by
    simp only [List.mem_append, not_or]
    exact ⟨fun member => absurd (wBlank _ member) (by decide),
      fun member => absurd (a.isAlpha_or_isDigit_of_mem_toText _ member) (by decide),
      fun member => absurd (xBlank _ member) (by decide)⟩
  exact parseRange?_eq_some split no_colon (Cell.ofReference?_trim aWithin wBlank xBlank)
    (Cell.ofReference?_trim bWithin yBlank zBlank)

theorem Outlines.region_eq (sheet : Sheet) (outlines : Outlines a b selection)
    (aWithin : a.InBounds) (bWithin : b.InBounds) :
    selection.region sheet = .ok (some (Region.of a b)) := by
  induction outlines with
  | range a b blank => rw [region, parseRange?_toText aWithin bWithin blank]
  | references a b =>
    simp only [region, Coordinate.resolve, Cell.ofText?_toText aWithin, Cell.ofText?_toText bWithin]
    rfl
  | indices a b => exact region_fixedBox sheet a b
  | @column col first last le =>
    have letters := Cell.columnOfLetters?_columnLetters aWithin.2
    have rows : columnRegion col first last = some (Region.of ⟨first, col⟩ ⟨last, col⟩) :=
      if_neg (Nat.not_lt.2 le)
    simp only [region, Cell.columnText, String.toList_ofList, letters, Nat.add_one_ne_zero,
      if_false, Nat.add_sub_cancel, Ordinate.resolve]
    exact congrArg Except.ok rows
  | @swap a b selection outlines ih => rw [ih bWithin aWithin, Region.of_comm]

theorem select_eq_of_region_eq {sheet : Sheet}
    (same : other.region sheet = selection.region sheet) :
    other.select sheet = selection.select sheet := by
  rw [select, same, select]

/-- Whatever the notation for a rectangle, it has the same region and selects the same cells. -/
theorem notations_agree (sheet : Sheet) {a b : Cell} (aWithin : a.InBounds) (bWithin : b.InBounds)
    {selection other : Selection} (outlines : Outlines a b selection)
    (also : Outlines a b other) :
    selection.region sheet = .ok (some (Region.of a b)) ∧
      other.region sheet = selection.region sheet ∧
      other.select sheet = selection.select sheet := by
  have first := outlines.region_eq sheet aWithin bWithin
  have second := also.region_eq sheet aWithin bWithin
  have same := second.trans first.symm
  exact ⟨first, same, select_eq_of_region_eq same⟩

theorem notations_agree_lastRows :
    (Selection.range " C18446744073709551615\t:C18446744073709551614").region Table.empty.sheet =
      .ok (some (Region.of ⟨Cell.maxIndex - 1, 2⟩ ⟨Cell.maxIndex, 2⟩)) ∧
    (Selection.column "C" 18446744073709551614 (some (.fixed Cell.maxIndex))).select
        Table.empty.sheet =
      (Selection.range " C18446744073709551615\t:C18446744073709551614").select
        Table.empty.sheet := by
  have letters : Cell.columnText 2 = "C" := by
    rw [Cell.columnText, Cell.columnLetters_of_lt (by decide)]
    rfl
  have upward : Outlines ⟨Cell.maxIndex, 2⟩ ⟨Cell.maxIndex - 1, 2⟩
      (.range " C18446744073709551615\t:C18446744073709551614") := by
    have written := Outlines.range ⟨Cell.maxIndex, 2⟩ ⟨Cell.maxIndex - 1, 2⟩
      (w := " ") (x := "\t") (y := "") (z := "") (List.all_eq_true.1 (by decide))
    rw [Cell.toText, Cell.toText, letters] at written
    exact written
  have downward : Outlines ⟨Cell.maxIndex - 1, 2⟩ ⟨Cell.maxIndex, 2⟩
      (.column "C" 18446744073709551614 (some (.fixed Cell.maxIndex))) := by
    rw [← letters]
    exact .column 2 (Nat.sub_le Cell.maxIndex 1)
  obtain ⟨region, -, selected⟩ := notations_agree Table.empty.sheet
    ⟨by decide, by decide⟩ ⟨by decide, by decide⟩ (.swap upward) downward
  exact ⟨region, selected⟩

end Selection

end LinkedSheet
