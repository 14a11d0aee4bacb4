namespace FileEndpoints.Text

/-- The characters with the Unicode property White_Space. -/
def isBlank (c : Char) : Bool :=
  let n := c.toNat
  (0x09 ≤ n && n ≤ 0x0D) || n == 0x20 || n == 0x85 || n == 0xA0 || n == 0x1680 ||
    (0x2000 ≤ n && n ≤ 0x200A) || n == 0x2028 || n == 0x2029 || n == 0x202F || n == 0x205F ||
    n == 0x3000

/-- Space, tab, line feed, form feed and carriage return; the vertical tab is not among them. -/
def isBlankByte (b : UInt8) : Bool :=
  b == 0x20 || b == 0x09 || b == 0x0A || b == 0x0C || b == 0x0D

def trimLeft (s : List Char) : List Char :=
  s.dropWhile isBlank

def trimRight (s : List Char) : List Char :=
  (s.reverse.dropWhile isBlank).reverse

def trim (s : List Char) : List Char :=
  trimRight (trimLeft s)

/-- The first word and what follows it, with the blanks around both dropped from the front. -/
def splitWord (s : List Char) : List Char × List Char :=
  let t := trimLeft s
  (t.takeWhile fun c => !isBlank c, trimLeft (t.dropWhile fun c => !isBlank c))

/-- The maximal runs of characters that are not blank. -/
def words (s : List Char) : List (List Char) :=
  match _h : trimLeft s with
  | [] => []
  | c :: t =>
    (c :: t.takeWhile fun d => !isBlank d) :: words (t.dropWhile fun d => !isBlank d)
termination_by s.length
decreasing_by
  have h₁ : (trimLeft s).length ≤ s.length := (List.dropWhile_sublist _).length_le
  have h₂ : (t.dropWhile fun d => !isBlank d).length ≤ t.length :=
    (List.dropWhile_sublist _).length_le
  simp only [_h, List.length_cons] at h₁
  omega

end FileEndpoints.Text
