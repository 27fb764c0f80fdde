/-!
# Words: the integers that sixty-four bits hold

* `wordLimit`   one more than the greatest of them
* `fitsWord`    the test
-/

namespace Ladybug

/-- one more than the greatest integer of a word -/
def wordLimit : Nat := Nat.pow 2 63

def fitsWord (i : Int) : Bool := -Int.ofNat wordLimit ≤ i && i < wordLimit

end Ladybug
