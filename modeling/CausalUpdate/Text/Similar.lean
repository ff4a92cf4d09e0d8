/-!
# Similar words

Two words are similar if they share much of their text.  What they share is counted by taking the
longest stretch that stands in both, then what stands before it in both, and what stands behind it
in both.  Words are similar if this is at least three fifths of what it would be at most.

* `shared` — how many characters two texts share.
* `closest` — the words most similar to a given one; there are only so many (`length_closest_le`),
  and they are candidates (`mem_of_mem_closest`).
-/

namespace CausalUpdate.Text

/-! ## Stretches -/

/-- A stretch of characters that stands in two texts. -/
structure Stretch where
  /-- Where it begins in the first text. -/
  first : Nat := 0
  /-- Where it begins in the second text. -/
  second : Nat := 0
  length : Nat := 0
deriving DecidableEq, Repr

/-- The number of characters in which two texts agree from their beginnings on. -/
def commonStart : List Char → List Char → Nat
  | a :: as, b :: bs => if a = b then commonStart as bs + 1 else 0
  | _, _ => 0

/-- The longer one of two stretches, the earlier one if they are as long. -/
def Stretch.longer (s t : Stretch) : Stretch :=
  if s.length < t.length then t else s

/-- The longest stretch, if `best` is the one found so far, that begins with the text `as` at place
`i` of the first text and somewhere in what follows place `j` of the second text. -/
def longestAt (as : List Char) (i j : Nat) (best : Stretch) : List Char → Stretch
  | [] => best
  | b :: bs => longestAt as i (j + 1) (best.longer ⟨i, j, commonStart as (b :: bs)⟩) bs

/-- The longest stretch, if `best` is the one found so far, that begins in what follows place `i` of
the first text. -/
def longestFrom (bs : List Char) (i : Nat) (best : Stretch) : List Char → Stretch
  | [] => best
  | a :: as => longestFrom bs (i + 1) (longestAt (a :: as) i 0 best bs) as

/-- The longest stretch that stands in two texts; of several, the one that comes first in the first
text, and then in the second. -/
def longest (as bs : List Char) : Stretch :=
  longestFrom bs 0 {} as

/-- How many characters two texts share. -/
def shared (as bs : List Char) : Nat :=
  match longest as bs with
  | ⟨i, j, n⟩ =>
    if 0 < n ∧ i + n ≤ as.length then
      n + shared (as.take i) (bs.take j) + shared (as.drop (i + n)) (bs.drop (j + n))
    else 0
termination_by as.length
decreasing_by
  · simp only [List.length_take]; omega
  · simp only [List.length_drop]; omega

/-! ## Words -/

/-- A word with how much it shares with another one. -/
structure Likeness where
  word : String
  /-- The number of characters that the words share. -/
  shared : Nat
  /-- The number of characters of both words together. -/
  total : Nat
deriving DecidableEq, Repr

namespace Likeness

/-- How a candidate compares with a word. -/
def between (word candidate : String) : Likeness :=
  ⟨candidate, Text.shared candidate.toList word.toList, candidate.length + word.length⟩

def isClose (l : Likeness) : Bool :=
  3 * l.total ≤ 10 * l.shared

/-- The order of likenesses: the most similar words first, equally similar ones in descending
order. -/
def atLeast (l m : Likeness) : Bool :=
  let left := l.shared * m.total
  let right := m.shared * l.total
  right < left || (left = right && m.word ≤ l.word)

end Likeness

/-- The most words that are proposed. -/
def proposalLimit : Nat := 3

/-- The candidates most similar to a word, in order. -/
def closest (word : String) (candidates : List String) : List String :=
  let close := (candidates.map (Likeness.between word)).filter Likeness.isClose
  let best := (close.mergeSort Likeness.atLeast).take proposalLimit
  (best.map Likeness.word).mergeSort fun a b => a ≤ b

/-- There are never more proposals than the limit. -/
theorem length_closest_le (word : String) (candidates : List String) :
    (closest word candidates).length ≤ proposalLimit := by
  simp only [closest, List.length_mergeSort, List.length_map, List.length_take]
  omega

theorem mem_of_mem_closest {word w : String} {candidates : List String}
    (h : w ∈ closest word candidates) : w ∈ candidates := by
  simp only [closest, List.mem_mergeSort, List.mem_map] at h
  obtain ⟨l, hl, rfl⟩ := h
  have found := List.mem_of_mem_take hl
  simp only [List.mem_mergeSort, List.mem_filter, List.mem_map] at found
  obtain ⟨⟨candidate, hcandidate, rfl⟩, -⟩ := found
  exact hcandidate

end CausalUpdate.Text
