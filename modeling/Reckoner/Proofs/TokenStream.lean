/-
# Tokens in a vector

A cursor is the list of the tokens still to be read, and there is nothing it
could leave.  The stream it stands for keeps all of its tokens in a vector,
and next to it the index of the current one.  The vector is indexed without a
check, so the index has to stay inside.  All that stops it is a `finish`, and
a stream puts one behind its tokens only if the last of them is none; one in
between stops it as well.

A stream is `Inside` the tokens it was made of if the index is as large as
the number of moves so far, but no larger than the index of the first
`finish`.  A fresh stream is, and stays so when it moves
(`Inside.moved`); the cursor that stands for it moves along.
-/
import Reckoner.Proofs.Reply

namespace Reckoner

theorem Cursor.advance_cons_of_ne {token : Token} (other : token ≠ .finish)
    (tail : Cursor) : advance (token :: tail) = tail := by
  rw [advance]
  exact other

/-- Tokens with the index of the current one. -/
structure TokenStream where
  tokens : Array Token
  position : Nat
  /-- How often the stream was told to move on.  Nothing reads it. -/
  advances : Nat

namespace TokenStream

/-- A stream at the start of `tokens`, which are closed by a `finish` if they
do not end in one. -/
def ofTokens (tokens : Array Token) : TokenStream where
  tokens :=
    if tokens.back? = some .finish then tokens else tokens.push .finish
  position := 0
  advances := 0

/-- The current token.  There is none if the index is out of range. -/
def current (stream : TokenStream) : Option Token :=
  stream.tokens[stream.position]?

/-- The stream one token further on; at a `finish` it stays where it is. -/
def moved (stream : TokenStream) : TokenStream :=
  { stream with
    position :=
      if stream.current = some .finish then stream.position
      else stream.position + 1
    advances := stream.advances + 1 }

/-- Moves on and reads the token there.  Both the token before and the one
after have to be in range. -/
def get (stream : TokenStream) : Option (Token × TokenStream) := do
  let _ ← stream.current
  return (← stream.moved.current, stream.moved)

/-- The cursor that stands for a stream. -/
def rest (stream : TokenStream) : Cursor :=
  stream.tokens.toList.drop stream.position

theorem length_rest_le (stream : TokenStream) :
    stream.rest.length ≤ stream.tokens.size :=
  (List.drop_suffix _ _).length_le

/-! ## Streams inside their tokens -/

/-- A stream of the tokens `stored` that has not left them. -/
structure Inside (stored : List Token) (stream : TokenStream) : Prop where
  kept : stream.tokens.toList = stored
  closed : .finish ∈ stored
  position_eq : stream.position =
    min stream.advances (stored.idxOf .finish)

theorem toList_ofTokens (tokens : Array Token) :
    (ofTokens tokens).tokens.toList = Cursor.ofTokens tokens.toList := by
  obtain ⟨tokens⟩ := tokens
  simp only [ofTokens, Cursor.ofTokens, List.back?_toArray]
  split <;> simp

theorem finish_mem_ofTokens (tokens : List Token) :
    .finish ∈ Cursor.ofTokens tokens := by
  unfold Cursor.ofTokens
  split
  · rename_i ends
    exact List.mem_of_getLast? ends
  · simp

/-- A fresh stream is inside. -/
theorem inside_ofTokens (tokens : Array Token) :
    Inside (Cursor.ofTokens tokens.toList) (ofTokens tokens) where
  kept := toList_ofTokens tokens
  closed := finish_mem_ofTokens tokens.toList
  position_eq := (Nat.zero_min _).symm

namespace Inside

variable {stored : List Token} {stream : TokenStream}
  (inside : Inside stored stream)

include inside

theorem position_le : stream.position ≤ stored.idxOf .finish := by
  rw [inside.position_eq]
  exact Nat.min_le_right _ _

theorem position_lt : stream.position < stored.length :=
  Nat.lt_of_le_of_lt inside.position_le
    (List.idxOf_lt_length_of_mem inside.closed)

theorem current_eq_getElem? : stream.current = stored[stream.position]? := by
  rw [current, ← Array.getElem?_toList, inside.kept]

theorem rest_eq_drop : stream.rest = stored.drop stream.position := by
  rw [rest, inside.kept]

theorem rest_ne_nil : stream.rest ≠ [] := by
  intro none_left
  rw [inside.rest_eq_drop, List.drop_eq_nil_iff] at none_left
  exact Nat.not_lt.mpr none_left inside.position_lt

/-- There is a current token, and it is the one of the cursor. -/
theorem current_eq : stream.current = some stream.rest.current := by
  have read : stream.rest.head? = stream.current := by
    rw [inside.rest_eq_drop, List.head?_drop, inside.current_eq_getElem?]
  rw [← read]
  cases here : stream.rest with
  | nil => exact absurd here inside.rest_ne_nil
  | cons token tail => rfl

/-- Only the first `finish` is ever current. -/
theorem current_eq_finish_iff : stream.current = some .finish ↔
    stream.position = stored.idxOf .finish := by
  rw [inside.current_eq_getElem?]
  constructor
  · intro here
    -- no token before the first `finish` is one
    refine inside.position_le.antisymm (Nat.not_lt.mp fun before => ?_)
    obtain ⟨lt, here⟩ := List.getElem?_eq_some_iff.mp here
    have other := List.not_of_lt_findIdx before
    rw [here] at other
    cases other
  · intro first
    rw [first]
    exact List.getElem?_idxOf inside.closed

/-- **A move stays inside.** -/
theorem moved : Inside stored stream.moved where
  kept := inside.kept
  closed := inside.closed
  position_eq := by
    have place := inside.position_eq
    show (if stream.current = some .finish then stream.position
      else stream.position + 1) = min (stream.advances + 1) _
    split
    · rename_i here
      -- the index stays, and the minimum has come to its bound
      have first := inside.current_eq_finish_iff.mp here
      omega
    · rename_i other
      have before := mt inside.current_eq_finish_iff.mpr other
      omega

/-- The cursor moves along. -/
theorem rest_moved : stream.moved.rest = stream.rest.advance := by
  rw [inside.moved.rest_eq_drop]
  show stored.drop (if stream.current = some .finish then stream.position
    else stream.position + 1) = _
  cases left : stream.rest with
  | nil => exact absurd left inside.rest_ne_nil
  | cons token tail =>
      have here : stream.current = some token := by
        rw [inside.current_eq, left]
        rfl
      by_cases ended : token = .finish
      · rw [if_pos (ended ▸ here), ← inside.rest_eq_drop, left, ended]
        rfl
      · rw [if_neg (fun h => ended (Option.some.inj (here.symm.trans h))),
          ← List.tail_drop, ← inside.rest_eq_drop, left,
          Cursor.advance_cons_of_ne ended]
        rfl

/-- A token of a statement is stepped over. -/
theorem rest_moved_of_cons {token : Token} {tail : Cursor}
    (left : stream.rest = token :: tail)
    (passed : token.endsStatement = false) : stream.moved.rest = tail := by
  have other : token ≠ .finish := by
    rintro rfl
    cases passed
  rw [inside.rest_moved, left, Cursor.advance_cons_of_ne other]

/-- So a stream inside its tokens can move on. -/
theorem get_eq :
    stream.get = some (stream.moved.rest.current, stream.moved) := by
  rw [get, inside.current_eq, inside.moved.current_eq]
  rfl

end Inside

end TokenStream

end Reckoner
