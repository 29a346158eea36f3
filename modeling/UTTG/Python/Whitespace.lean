import UTTG.Python.Text

/-!
# White space and lines

`str.strip` and `str.rstrip` remove white space as Unicode defines it, and
`str.splitlines` cuts a string at its line boundaries, which are more characters
than the line feed.
-/

namespace UTTG.Python

/-- A character for which `str.isspace` holds. -/
def isWhitespace (code : CodePoint) : Bool :=
  0x9 ≤ code.val && code.val ≤ 0xD || 0x1C ≤ code.val && code.val ≤ 0x20 ||
    code.val == 0x85 || code.val == 0xA0 || code.val == 0x1680 ||
    0x2000 ≤ code.val && code.val ≤ 0x200A || code.val == 0x2028 ||
    code.val == 0x2029 || code.val == 0x202F || code.val == 0x205F ||
    code.val == 0x3000

/-- `string.rstrip()`. -/
def rstrip (string : Text) : Text :=
  (string.reverse.dropWhile isWhitespace).reverse

/-- `string.strip()`. -/
def strip (string : Text) : Text := rstrip (string.dropWhile isWhitespace)

example : strip (text " \t 0 ISS \n") = text "0 ISS" := by
  decide

/-- `string.split()`. -/
def split (string : Text) : List Text :=
  (string.splitOnP isWhitespace).filter fun word => !word.isEmpty

theorem rstrip_eq_nil_iff (string : Text) :
    rstrip string = [] ↔ ∀ code ∈ string, isWhitespace code = true := by
  rw [rstrip, List.reverse_eq_nil_iff, List.dropWhile_eq_nil_iff]
  simp only [List.mem_reverse]

theorem strip_eq_nil_iff (string : Text) :
    strip string = [] ↔ ∀ code ∈ string, isWhitespace code = true := by
  rw [strip, rstrip_eq_nil_iff]
  constructor
  · intro hdropped code hcode
    rw [← List.takeWhile_append_dropWhile (p := isWhitespace) (l := string)]
      at hcode
    rcases List.mem_append.mp hcode with htaken | hleft
    · exact List.mem_takeWhile_imp htaken
    · exact hdropped code hleft
  · intro hall code hcode
    exact hall code ((List.dropWhile_suffix _).subset hcode)

/-- What is left ends with a character that is no white space. -/
theorem exists_rstrip_eq {string : Text} (hstring : strip string ≠ []) :
    ∃ init last, rstrip string = init ++ [last] ∧
      isWhitespace last = false := by
  have hne : string.reverse.dropWhile isWhitespace ≠ [] := by
    intro hnil
    apply hstring
    rw [strip_eq_nil_iff, ← rstrip_eq_nil_iff, rstrip, hnil]
    rfl
  obtain ⟨last, rest, hdropped⟩ := List.exists_cons_of_ne_nil hne
  refine ⟨rest.reverse, last, by rw [rstrip, hdropped, List.reverse_cons], ?_⟩
  have hhead := List.head_dropWhile_not isWhitespace hne
  simpa [hdropped] using hhead

/-- `string.startswith(prefix)`. -/
def startswith (start : String) (string : Text) : Bool :=
  (text start).isPrefixOf string

/-- `string.removeprefix(prefix)`. -/
def removeprefix (start : String) (string : Text) : Text :=
  if startswith start string then string.drop (text start).length else string

/-! ## Lines -/

def lineFeed : CodePoint := point 0xA

def carriageReturn : CodePoint := point 0xD

/-- A line boundary of `str.splitlines`. -/
def isLineBreak (code : CodePoint) : Bool :=
  0xA ≤ code.val && code.val ≤ 0xD || 0x1C ≤ code.val && code.val ≤ 0x1E ||
    code.val == 0x85 || code.val == 0x2028 || code.val == 0x2029

/-- `string.splitlines()`: a carriage return and a line feed are one boundary,
and there is no empty line after a boundary at the end. -/
def splitlines : Text → List Text
  | [] => []
  | [code] => if isLineBreak code then [[]] else [[code]]
  | code :: next :: later =>
      if isLineBreak code then
        [] :: if code = carriageReturn ∧ next = lineFeed then splitlines later
          else splitlines (next :: later)
      else
        match splitlines (next :: later) with
        | [] => [[code]]
        | line :: lines => (code :: line) :: lines

example : splitlines (text "a\x0d\x0ab\x0a\x0ac\x0a") =
    [text "a", text "b", [], text "c"] := by
  decide

/-- `"\n".join(lines)`. -/
def joinLines (lines : List Text) : Text := [lineFeed].intercalate lines

theorem splitlines_lineFeed (rest : Text) :
    splitlines (lineFeed :: rest) = [] :: splitlines rest := by
  have hbreak : isLineBreak lineFeed = true := by decide
  have hreturn : ¬lineFeed = carriageReturn := by decide
  cases rest with
  | nil => rfl
  | cons next later =>
      rw [splitlines, if_pos hbreak, if_neg fun hboth => hreturn hboth.1]

theorem splitlines_cons {code : CodePoint} (hcode : isLineBreak code = false)
    (rest : Text) :
    splitlines (code :: rest) =
      match splitlines rest with
      | [] => [[code]]
      | line :: lines => (code :: line) :: lines := by
  cases rest with
  | nil => simp [splitlines, hcode]
  | cons next later => rw [splitlines, if_neg (by simp [hcode])]

/-- The first line of a text. -/
theorem splitlines_append {line : Text}
    (hline : ∀ code ∈ line, isLineBreak code = false) (rest : Text) :
    splitlines (line ++ lineFeed :: rest) = line :: splitlines rest := by
  induction line with
  | nil => exact splitlines_lineFeed rest
  | cons code line ih =>
      rw [List.cons_append, splitlines_cons (hline code List.mem_cons_self),
        ih fun other hother => hline other (List.mem_cons_of_mem code hother)]

theorem splitlines_of_unbroken {line : Text}
    (hline : ∀ code ∈ line, isLineBreak code = false) (hne : line ≠ []) :
    splitlines line = [line] := by
  induction line with
  | nil => exact absurd rfl hne
  | cons code line ih =>
      rw [splitlines_cons (hline code List.mem_cons_self)]
      cases line with
      | nil => rfl
      | cons next rest =>
          rw [ih (fun other hother =>
            hline other (List.mem_cons_of_mem code hother))
              (List.cons_ne_nil _ _)]

/-- The lines of a text that is joined from lines, but for empty ones at its
end. -/
theorem filter_splitlines_joinLines {keep : Text → Bool}
    (hempty : keep [] = false) {lines : List Text}
    (hlines : ∀ line ∈ lines, ∀ code ∈ line, isLineBreak code = false) :
    (splitlines (joinLines lines)).filter keep = lines.filter keep := by
  induction lines with
  | nil => rfl
  | cons line rest ih =>
      have hline := hlines line List.mem_cons_self
      have hrest := ih fun other hother =>
        hlines other (List.mem_cons_of_mem line hother)
      cases rest with
      | nil =>
          cases line with
          | nil => simp [joinLines, splitlines, hempty]
          | cons code line =>
              rw [joinLines, List.intercalate_singleton,
                splitlines_of_unbroken hline (List.cons_ne_nil _ _)]
      | cons next later =>
          have hjoin : joinLines (line :: next :: later) =
              line ++ lineFeed :: joinLines (next :: later) := by
            rw [joinLines, List.intercalate_cons_cons, List.append_assoc]
            rfl
          rw [hjoin, splitlines_append hline, List.filter_cons,
            List.filter_cons, hrest]

end UTTG.Python
