import SqfLayout.Json

/-! Passing over a JSON value that nobody asks for. It must be well formed, but may nest without
limit. -/
namespace SqfLayout.Json

/-- What follows the digits at the start of a text. -/
def afterDigits (s : Text) : Text := s.dropWhile Char.isDigit

/-- What follows an exponent, after its letter. -/
def skipExponent (s : Text) : Except Fault Text :=
  let digits :=
    match s with
    | [] => []
    | c :: rest => if c = '+' ∨ c = '-' then rest else c :: rest
  match digits with
  | [] => .error (faultBefore .badNumber [])
  | c :: rest =>
    if c.isDigit then .ok (afterDigits rest) else .error (faultBehind .badNumber (c :: rest))

/-- What follows an exponent, if there is one. -/
def skipExponent? (s : Text) : Except Fault Text :=
  match s with
  | [] => .ok []
  | c :: rest => if c = 'e' ∨ c = 'E' then skipExponent rest else .ok (c :: rest)

/-- What follows a fraction and an exponent, if they are there. -/
def skipFraction? (s : Text) : Except Fault Text :=
  match s with
  | [] => .ok []
  | c :: rest =>
    if c = '.' then
      if rest.head?.any Char.isDigit then skipExponent? (afterDigits rest)
      else .error (faultBehind .badNumber rest)
    else skipExponent? (c :: rest)

/-- What follows a number, after its sign. A zero is not followed by further digits. -/
def skipNumber (s : Text) : Except Fault Text :=
  match s with
  | [] => .error (faultBefore .badNumber [])
  | c :: rest =>
    if c = '0' then
      if rest.head?.any Char.isDigit then .error (faultBehind .badNumber rest)
      else skipFraction? rest
    else if c.isDigit then skipFraction? (afterDigits rest)
    else .error (faultBehind .badNumber (c :: rest))

/-- What follows a value that is neither a list nor an object. -/
def skipScalar (s : Text) : Except Fault Text :=
  match s with
  | [] => .error (faultBefore .endInValue [])
  | c :: rest =>
    if c = 'n' then word "ull" rest
    else if c = 't' then word "rue" rest
    else if c = 'f' then word "alse" rest
    else if c = '-' then skipNumber rest
    else if c.isDigit then skipNumber (c :: rest)
    else if c = '"' then skipString rest
    else .error (faultBehind .noValue (c :: rest))

theorem length_afterDigits_le (s : Text) : (afterDigits s).length ≤ s.length :=
  (List.dropWhile_suffix _).length_le

theorem length_of_word {es s rest : Text} (h : word es s = .ok rest) :
    rest.length ≤ s.length := by
  fun_induction word es s with
  | case1 => cases h; exact Nat.le_refl _
  | case2 => cases h
  | case3 _ _ _ ih => exact Nat.le_succ_of_le (ih h)
  | case4 => cases h

theorem length_of_skipExponent {s rest : Text} (h : skipExponent s = .ok rest) :
    rest.length ≤ s.length := by
  unfold skipExponent at h
  cases s with
  | nil => cases h
  | cons c t =>
    dsimp only at h
    split at h
    · cases h
    · rename_i d u hd
      split at h
      · cases h
        have := length_afterDigits_le u
        split at hd
        · subst hd; simp only [List.length_cons]; omega
        · cases hd; simp only [List.length_cons]; omega
      · cases h

theorem length_of_skipExponent? {s rest : Text} (h : skipExponent? s = .ok rest) :
    rest.length ≤ s.length := by
  unfold skipExponent? at h
  split at h
  · cases h; exact Nat.le_refl _
  · split at h
    · exact Nat.le_succ_of_le (length_of_skipExponent h)
    · cases h; exact Nat.le_refl _

theorem length_of_skipFraction? {s rest : Text} (h : skipFraction? s = .ok rest) :
    rest.length ≤ s.length := by
  unfold skipFraction? at h
  split at h
  · cases h; exact Nat.le_refl _
  · split at h
    · split at h
      · have := length_of_skipExponent? h
        have := length_afterDigits_le (by assumption)
        simp only [List.length_cons]
        omega
      · cases h
    · exact length_of_skipExponent? h

theorem length_of_skipNumber {s rest : Text} (h : skipNumber s = .ok rest) :
    rest.length < s.length := by
  unfold skipNumber at h
  split at h
  · cases h
  · split at h
    · split at h
      · cases h
      · exact Nat.lt_succ_of_le (length_of_skipFraction? h)
    · split at h
      · exact Nat.lt_succ_of_le (Nat.le_trans (length_of_skipFraction? h) (length_afterDigits_le _))
      · cases h

theorem length_of_skipScalar {s rest : Text} (h : skipScalar s = .ok rest) :
    rest.length < s.length := by
  unfold skipScalar at h
  split at h
  · cases h
  repeat' (split at h)
  · exact Nat.lt_succ_of_le (length_of_word h)
  · exact Nat.lt_succ_of_le (length_of_word h)
  · exact Nat.lt_succ_of_le (length_of_word h)
  · exact Nat.lt_succ_of_lt (length_of_skipNumber h)
  · exact length_of_skipNumber h
  · exact Nat.lt_succ_of_lt (length_of_skipString h)
  · cases h

/-- What encloses a value. -/
inductive Frame
  | list | object
  deriving DecidableEq, Repr

namespace Frame

def closing : Frame → Char
  | .list => ']'
  | .object => '\x7d'

def endProblem : Frame → Problem
  | .list => .endInList
  | .object => .endInObject

def separatorProblem : Frame → Problem
  | .list => .noListEnd
  | .object => .noObjectEnd

end Frame

/-- Where skipping stands: before a value, before the key of a value, or behind a value. -/
inductive Skipping
  | value | key | behind
  deriving DecidableEq, Repr

/-- What a frame goes on with. -/
def Frame.item : Frame → Skipping
  | .list => .value
  | .object => .key

/-- What follows the value, and the frames around it, the innermost first. -/
def skipFrom (place : Skipping) (frames : List Frame) (s : Text) : Except Fault Text :=
  match place with
  | .value =>
    match h : skipWhite s with
    | [] => .error (faultBefore .endInValue [])
    | c :: rest =>
      have := length_of_skipWhite h
      if c = '[' ∨ c = '\x7b' then
        let frame := if c = '[' then Frame.list else Frame.object
        match h : skipWhite rest with
        | [] => .error (faultBefore frame.endProblem [])
        | d :: rest' =>
          have := length_of_skipWhite h
          if d = frame.closing then skipFrom .behind frames rest'
          else skipFrom frame.item (frame :: frames) (d :: rest')
      else
        match h : skipScalar (c :: rest) with
        | .error fault => .error fault
        | .ok rest' =>
          have : rest'.length < rest.length + 1 := length_of_skipScalar h
          skipFrom .behind frames rest'
  | .key =>
    match h : skipWhite s with
    | [] => .error (faultBefore .endInObject [])
    | c :: rest =>
      have := length_of_skipWhite h
      if c = '"' then
        match h : skipString rest with
        | .error fault => .error fault
        | .ok rest' =>
          have := length_of_skipString h
          match h : skipWhite rest' with
          | [] => .error (faultBefore .endInObject [])
          | d :: rest'' =>
            have := length_of_skipWhite h
            if d = ':' then skipFrom .value frames rest''
            else .error (faultBehind .noColon (d :: rest''))
      else .error (faultBehind .keyNotString (c :: rest))
  | .behind =>
    match frames with
    | [] => .ok s
    | frame :: frames =>
      match h : skipWhite s with
      | [] => .error (faultBefore frame.endProblem [])
      | c :: rest =>
        have := length_of_skipWhite h
        if c = ',' then skipFrom frame.item (frame :: frames) rest
        else if c = frame.closing then skipFrom .behind frames rest
        else .error (faultBehind frame.separatorProblem (c :: rest))
termination_by s.length

/-- What follows one value. -/
def skip (s : Text) : Except Fault Text := skipFrom .value [] s

end SqfLayout.Json
