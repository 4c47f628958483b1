import HolGuard.Lib.Text
/-!
# Comparing and cutting ASCII names
-/
namespace Lib

def eqIgnoreAsciiCase (a b : List Char) : Bool := a.map asciiLower == b.map asciiLower

/-- What follows the last occurrence of a character, the whole text without one: the first piece of `str::rsplit`. -/
def afterLast (mark : Char) (text : List Char) : List Char := (text.reverse.takeWhile (fun c => c != mark)).reverse

theorem afterLast_append {mark : Char} {before text : List Char} (h : mark ∉ text) :
    afterLast mark (before ++ mark :: text) = text := by
  have htail : (before ++ mark :: text).reverse = text.reverse ++ (mark :: before.reverse) := by simp
  have hmarks : ∀ c ∈ text.reverse, (c != mark) = true := by
    intro c hc
    rw [bne_iff_ne]
    rintro rfl
    exact h (List.mem_reverse.1 hc)
  have hcons : (mark :: before.reverse).takeWhile (fun c => c != mark) = [] := by simp
  unfold afterLast
  rw [htail, List.takeWhile_append_of_pos hmarks, hcons, List.append_nil, List.reverse_reverse]

/-- What stands before the first pair of underscores. -/
def beforeMark : List Char → List Char
  | '_' :: '_' :: _ => []
  | c :: cs => c :: beforeMark cs
  | [] => []

/-- The last piece of a split at double underscores, found from the right. -/
def lastPiece (text : List Char) : List Char := (beforeMark text.reverse).reverse

def trim (text : List Char) : List Char := ((text.dropWhile isWhitespace).reverse.dropWhile isWhitespace).reverse

end Lib
