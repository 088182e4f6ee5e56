import DocComments.Text.Basic

/-!
# The order of texts

Texts are ordered character by character, each by its code point, and a text comes before its
continuations. This is also the order of their UTF-8 encodings, byte by byte.

* `compare` is this order, and `sort` puts a list of texts into it.
-/

namespace DocComments.Text

/-- The order of two texts. -/
def compare (a b : Text) : Ordering :=
  List.compareLex (fun c d => Ord.compare c.toNat d.toNat) a b

/-- The texts in increasing order. -/
def sort (ts : List Text) : List Text :=
  ts.mergeSort fun a b => (compare a b).isLE

end DocComments.Text
