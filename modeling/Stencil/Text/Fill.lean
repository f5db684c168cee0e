/-!
# Repeating text

* `repeated` — a text some number of times over;
* `filling` — as many characters as asked for, going round and round through a text.

Both build their result from front to back.
-/

namespace Stencil.Text

/-- The text `built` followed by `n` times the text `s`. -/
def appendTimes (s : String) : Nat → String → String
  | 0, built => built
  | n + 1, built => appendTimes s n (built ++ s)

/-- The text `s`, `n` times over. -/
def repeated (s : String) (n : Nat) : String := appendTimes s n ""

/-- The text `built` followed by `n` characters, first those that are left of a round and then more
rounds through `all`. -/
def appendRound (all : List Char) : Nat → List Char → String → String
  | 0, _, built => built
  | n + 1, c :: left, built => appendRound all n left (built.push c)
  | n + 1, [], built =>
    match all with
    | [] => built
    | c :: left => appendRound all n left (built.push c)

/-- The first `n` characters of the endless repetition of `all`. -/
def filling (all : List Char) (n : Nat) : String := appendRound all n all ""

end Stencil.Text
