/-!
# Blanks, words, lines and letter case

Text is read as a list of characters. `pieces` cuts a list at separators and keeps the empty pieces;
`words` drops them. Lines, dotted names and manifest columns are all cut with these two functions.
Blanks are the characters with the Unicode property `White_Space`; letter case is that of ASCII
only.
-/

namespace ComponentIdl.Text

/-- The characters with the Unicode property `White_Space`. -/
def isBlank (c : Char) : Bool :=
  let n := c.toNat
  (0x9 ≤ n && n ≤ 0xD) || n == 0x20 || n == 0x85 || n == 0xA0 || n == 0x1680 ||
    (0x2000 ≤ n && n ≤ 0x200A) || n == 0x2028 || n == 0x2029 || n == 0x202F || n == 0x205F ||
    n == 0x3000

/-- The pieces between separators, empty ones included: `n` separators give `n + 1` pieces. -/
def pieces (sep : Char → Bool) : List Char → List (List Char)
  | [] => [[]]
  | c :: cs =>
    if sep c then [] :: pieces sep cs
    else
      match pieces sep cs with
      | [] => [[c]]
      | w :: ws => (c :: w) :: ws

/-- The maximal nonempty runs of characters that are no separators, in order. -/
def words (sep : Char → Bool) (cs : List Char) : List (List Char) :=
  (pieces sep cs).filter fun w => !w.isEmpty

def strip (drop : Char → Bool) (cs : List Char) : List Char :=
  ((cs.dropWhile drop).reverse.dropWhile drop).reverse

def trim (text : String) : String :=
  String.ofList (strip isBlank text.toList)

/-- The columns of a line: its words between blanks. -/
def columns (line : String) : List String :=
  (words isBlank line.toList).map String.ofList

def dropReturn (line : List Char) : List Char :=
  if line.getLast? = some '\r' then line.dropLast else line

/-- The lines of a text. A line ends with a line feed, or with a carriage return and a line feed;
what follows the last line feed is a line only if it is not empty. -/
def lines (text : String) : List String :=
  let cut := pieces (· == '\n') text.toList
  let ended := cut.dropLast.map dropReturn
  let rest := (cut.getLast?.getD [])
  (ended ++ if rest.isEmpty then [] else [rest]).map String.ofList

def lower (text : String) : String :=
  String.ofList (text.toList.map Char.toLower)

/-- Whether two texts are equal up to the case of ASCII letters. -/
def sameIgnoringCase (a b : String) : Bool :=
  lower a == lower b

theorem pieces_ne_nil (sep : Char → Bool) (cs : List Char) : pieces sep cs ≠ [] := by
  cases cs with
  | nil => simp [pieces]
  | cons c cs =>
    simp only [pieces]
    split
    · simp
    · split <;> simp

theorem pieces_append (sep : Char → Bool) (as : List Char) (s : Char) (bs : List Char)
    (hs : sep s = true) : pieces sep (as ++ s :: bs) = pieces sep as ++ pieces sep bs := by
  induction as with
  | nil => simp [pieces, hs]
  | cons a as ih =>
    simp only [List.cons_append, pieces, ih]
    split
    · rfl
    · cases h : pieces sep as with
      | nil => exact absurd h (pieces_ne_nil sep as)
      | cons w ws => rfl

theorem words_append (sep : Char → Bool) (as : List Char) (s : Char) (bs : List Char)
    (hs : sep s = true) : words sep (as ++ s :: bs) = words sep as ++ words sep bs := by
  simp [words, pieces_append sep as s bs hs]

theorem pieces_of_clean (sep : Char → Bool) (cs : List Char) (h : ∀ c ∈ cs, sep c = false) :
    pieces sep cs = [cs] := by
  induction cs with
  | nil => rfl
  | cons c cs ih =>
    have hc : sep c = false := h c (List.mem_cons_self ..)
    simp [pieces, hc, ih fun d hd => h d (List.mem_cons_of_mem _ hd)]

end ComponentIdl.Text
