import ShiftReduce.Unicode.Runs

/-!
Blanks: the characters with the property White_Space.
-/
namespace ShiftReduce.Unicode

/-- The code points with the property White_Space. -/
def blankRuns : List Run := [
  (0x9, 0xD), (0x20, 0x20), (0x85, 0x85), (0xA0, 0xA0), (0x1680, 0x1680), (0x2000, 0x200A),
  (0x2028, 0x2029), (0x202F, 0x202F), (0x205F, 0x205F), (0x3000, 0x3000)]

/-- Whether a character is white space. -/
def isBlank (c : Char) : Bool := covers c.toNat blankRuns

/-- A line feed is white space. -/
theorem isBlank_lineFeed : isBlank '\n' = true := by decide

/-- A tab is white space. -/
theorem isBlank_tab : isBlank '\t' = true := by decide

/-- A space is white space. -/
theorem isBlank_space : isBlank ' ' = true := by decide

end ShiftReduce.Unicode
