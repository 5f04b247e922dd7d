import SqfLayout.Text.Word

/-! Sentences of a description: words and quoted terms, joined by white space, a period with white
space, or a hyphen. -/
namespace SqfLayout.Header

/-- An upper case letter of ASCII, with which sentences and phrases start. -/
def isCapital (c : Char) : Bool := 'A' ≤ c && c ≤ 'Z'

/-- What follows a joiner. -/
def afterJoiner? : Text → Option Text
  | [] => none
  | c :: rest =>
    if c = '.' then
      match rest with
      | [] => none
      | d :: rest => if Text.isSpace d then some rest else none
    else if Text.isSpace c || c = '-' then some rest
    else none

/-- What may stand between the quotes of a term: three characters or more, word characters and
slashes, with a word character at either end. -/
def isTerm (body : Text) : Bool :=
  decide (3 ≤ body.length) && body.all (fun c => Text.isWord c || c == '/') &&
    body.head?.any Text.isWord && body.getLast?.any Text.isWord

/-- What follows a word or a quoted term. -/
def afterTerm? : Text → Option Text
  | [] => none
  | c :: rest =>
    if c = '"' then
      if isTerm (rest.takeWhile (· ≠ '"')) then
        match rest.dropWhile (· ≠ '"') with
        | [] => none
        | _ :: rest => some rest
      else none
    else if Text.isWord c then some (rest.dropWhile Text.isWord)
    else none

theorem length_of_afterJoiner? {s rest : Text} (h : afterJoiner? s = some rest) :
    rest.length < s.length := by
  unfold afterJoiner? at h
  split at h
  · cases h
  · split at h
    · split at h
      · cases h
      · split at h
        · cases h; simp only [List.length_cons]; omega
        · cases h
    · split at h
      · cases h; exact Nat.lt_succ_self _
      · cases h

theorem length_of_afterTerm? {s rest : Text} (h : afterTerm? s = some rest) :
    rest.length < s.length := by
  unfold afterTerm? at h
  split at h
  · cases h
  · rename_i c t
    split at h
    · split at h
      · split at h
        · cases h
        · rename_i d u hd
          cases h
          have : (d :: rest).length ≤ t.length := hd ▸ (List.dropWhile_suffix _).length_le
          simp only [List.length_cons] at *
          omega
      · cases h
    · split at h
      · cases h
        exact Nat.lt_succ_of_le (List.dropWhile_suffix _).length_le
      · cases h

/-- What may follow the first word of a sentence: joined words and terms, then perhaps a period. -/
def isContinuation (s : Text) : Bool :=
  match _ : (afterJoiner? s).bind afterTerm? with
  | some rest => isContinuation rest
  | none => s.isEmpty || s == ['.']
termination_by s.length
decreasing_by
  rename_i h
  obtain ⟨t, hs, ht⟩ := Option.bind_eq_some_iff.1 h
  exact Nat.lt_trans (length_of_afterTerm? ht) (length_of_afterJoiner? hs)

/-- A sentence starts with a capitalized word of two characters or more. -/
def isSentence : Text → Bool
  | c :: d :: rest =>
    isCapital c && Text.isWord d && isContinuation (rest.dropWhile Text.isWord)
  | _ => false

end SqfLayout.Header
