/-!
Blank characters: the Unicode property White_Space. A zero-width space, a byte order mark and the
information separators are not blank.
-/

set_option autoImplicit false

namespace PageRoutes.Text

def isBlank (c : Char) : Bool :=
  let code := c.toNat
  (0x9 ≤ code && code ≤ 0xD) || code == 0x20 || code == 0x85 || code == 0xA0 || code == 0x1680 ||
    (0x2000 ≤ code && code ≤ 0x200A) || code == 0x2028 || code == 0x2029 || code == 0x202F ||
    code == 0x205F || code == 0x3000

def skipBlanks (text : List Char) : List Char :=
  text.dropWhile isBlank

def trimEndWhile (drop : Char → Bool) (text : List Char) : List Char :=
  (text.reverse.dropWhile drop).reverse

def trimBlanks (text : List Char) : List Char :=
  trimEndWhile isBlank (skipBlanks text)

theorem skipBlanks_cons_of_isBlank {c : Char} (text : List Char) (h : isBlank c = true) :
    skipBlanks (c :: text) = skipBlanks text := by
  simp [skipBlanks, h]

theorem skipBlanks_cons_of_not_isBlank {c : Char} (text : List Char) (h : isBlank c = false) :
    skipBlanks (c :: text) = c :: text := by
  simp [skipBlanks, h]

theorem length_skipBlanks_le (text : List Char) : (skipBlanks text).length ≤ text.length :=
  List.Sublist.length_le (List.dropWhile_sublist _)

end PageRoutes.Text
