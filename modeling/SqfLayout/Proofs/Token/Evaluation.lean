import SqfLayout.Proofs.Token.Scanning

/-! The tokens of a given source, computed with a bound on the number of its lexemes. -/
namespace SqfLayout

namespace Lexeme

/-- Cuts a text into no more lexemes than the bound. -/
def cutWithin : Nat → Position → Bool → Text → Option (List (Position × Lexeme))
  | _, _, _, [] => some []
  | 0, _, _, _ :: _ => none
  | bound + 1, p, lineStart, c :: rest =>
    match read lineStart c rest with
    | .error _ => none
    | .ok x =>
      (cutWithin bound (p.advance x.text) x.isBreaks ((c :: rest).drop x.text.length)).map ((p, x) :: ·)

private theorem cut_of_cutWithin {bound : Nat} {p : Position} {lineStart : Bool} {text : Text}
    {ys : List (Position × Lexeme)} (h : cutWithin bound p lineStart text = some ys) :
    cut p lineStart text = .ok ys := by
  induction bound generalizing p lineStart text ys with
  | zero =>
    cases text with
    | nil =>
      cases h
      rw [cut]
    | cons c rest => cases h
  | succ bound ih =>
    cases text with
    | nil =>
      cases h
      rw [cut]
    | cons c rest =>
      rw [cutWithin] at h
      cases hread : read lineStart c rest with
      | error stuck =>
        rw [hread] at h
        cases h
      | ok x =>
        rw [hread] at h
        obtain ⟨more, hmore, rfl⟩ := Option.map_eq_some_iff.1 h
        rw [Token.cut_of_read hread, ih hmore]
        rfl

end Lexeme

namespace Token

def streamWithin (bound : Nat) (source : Text) : Option (List Token) :=
  let text := Text.dropMark source
  let margin := text.takeWhile Text.isBlank
  let body := text.dropWhile Text.isBlank
  let start := Position.start.advance margin
  (Lexeme.cutWithin bound start true body).map (ofLexemes ⟨margin.length, []⟩ (start.advance body))

theorem stream_of_streamWithin {bound : Nat} {source : Text} {tokens : List Token}
    (h : streamWithin bound source = some tokens) : stream source = .ok tokens := by
  obtain ⟨ys, hcut, rfl⟩ := Option.map_eq_some_iff.1 h
  rw [stream_eq_scan]
  unfold scan
  rw [Lexeme.cut_of_cutWithin hcut]
  rfl

end Token
end SqfLayout
