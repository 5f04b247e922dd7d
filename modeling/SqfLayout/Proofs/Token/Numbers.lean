import SqfLayout.Proofs.Lexeme.NumberLiteral
import SqfLayout.Proofs.Token.Evaluation
import SqfLayout.Proofs.Token.Splicing

/-! Number tokens, each of them the longest literal that starts where it stands, or a bare `0x`. -/
namespace SqfLayout.Token
open Lexeme (LongestBeginning StartsBareMark IsNumber startsNumber)

section
variable {source : Text} {tokens : List Token} {t : Token}

theorem exists_read_of_number (h : stream source = .ok tokens) (ht : t ∈ tokens) (hkind : t.kind = .number) :
    ∃ before c rest, Text.dropMark source = before ++ c :: rest ∧ t.position = .behind before ∧
      startsNumber c rest = true ∧ t.value = Lexeme.number (c :: rest) := by
  obtain ⟨ys, hcut, rfl⟩ := exists_cut_of_stream h
  have hend (i : Indentation) : t ∉ i.finish (Position.start.advance (Text.dropMark source)) := by
    intro hmem
    obtain ⟨-, heq | heq⟩ := position_of_finish hmem <;> simp [hkind] at heq
  obtain ⟨front, q, x, others, rfl, ⟨-, hlayout, -⟩ | ⟨-, hmem⟩⟩ := exists_lexeme_of_mem ht hend
  · simp [hkind, Kind.isLayout] at hlayout
  · obtain ⟨c, rest, -, hsource, hplace, hread, -, -⟩ := exists_read_at hcut
    cases Lexeme.reads_of_read hread with
    | number hstarts =>
      rw [List.mem_singleton.1 hmem]
      exact ⟨_, c, rest, hsource, hplace, hstarts, rfl⟩
    | directive _ hdirective =>
      obtain ⟨_, _, _, rfl⟩ | ⟨_, rfl⟩ := Lexeme.readDirective_cases hdirective <;>
        obtain rfl | rfl : t = _ ∨ t = _ := by simpa [Lexeme.tokens] using hmem
      all_goals cases hkind
    | mark hmark =>
      rw [List.mem_singleton.1 hmem] at hkind
      unfold Lexeme.mark? at hmark
      grind
    | breaks => cases hmem
    | space | blockComment | lineComment | string | command | operator =>
      rw [List.mem_singleton.1 hmem] at hkind
      cases hkind

/-- A number token is the longest literal that starts where it stands, except that `0x` is a token even if
no digit of its base stands behind it. -/
theorem stream_number_longest (h : stream source = .ok tokens) (ht : t ∈ tokens) (hkind : t.kind = .number) :
    ∃ before rest, Text.dropMark source = before ++ rest ∧ t.position = .behind before ∧
      (LongestBeginning IsNumber t.value rest ↔ ¬ StartsBareMark rest) ∧
      (StartsBareMark rest → t.value = rest.take 2 ∧ ¬ IsNumber t.value) := by
  obtain ⟨before, c, rest, hsource, hplace, hstarts, hvalue⟩ := exists_read_of_number h ht hkind
  rw [hvalue]
  refine ⟨before, c :: rest, hsource, hplace, Lexeme.longest_number_iff hstarts, fun hbare => ?_⟩
  obtain ⟨heq, hno⟩ := hbare.number_eq
  exact ⟨heq, heq ▸ hno⟩

end

/-- A literal with an exponent, in front of a letter that does not belong to it. -/
theorem stream_number_longest_exponent :
    stream "1.5e+3x" = .ok [⟨.number, "1.5e+3", ⟨1, 1⟩⟩, ⟨.command, "x", ⟨1, 7⟩⟩, eos ⟨1, 8⟩] ∧
    ∃ before rest, Text.dropMark "1.5e+3x" = before ++ rest ∧ (⟨1, 1⟩ : Position) = .behind before ∧
      (LongestBeginning IsNumber "1.5e+3" rest ↔ ¬ StartsBareMark rest) ∧
      (StartsBareMark rest → ("1.5e+3" : Text) = rest.take 2 ∧ ¬ IsNumber "1.5e+3") := by
  have hstream : stream "1.5e+3x" = .ok [⟨.number, "1.5e+3", ⟨1, 1⟩⟩, ⟨.command, "x", ⟨1, 7⟩⟩, eos ⟨1, 8⟩] :=
    @stream_of_streamWithin 3 _ _ (by decide +kernel)
  exact ⟨hstream, stream_number_longest (t := ⟨.number, "1.5e+3", ⟨1, 1⟩⟩) hstream (by simp) rfl⟩

/-- The mark of a hexadecimal literal is a token without a digit behind it, though the zero in front of its
letter is a literal. -/
theorem stream_number_bare :
    stream "0x" = .ok [⟨.number, "0x", ⟨1, 1⟩⟩, eos ⟨1, 3⟩] ∧ IsNumber "0" ∧ ("0" : Text) <+: "0x" ∧
      ¬ LongestBeginning IsNumber "0x" "0x" := by
  have hzero : Lexeme.IsDigits Char.isDigit "0" := ⟨by simp, by simp⟩
  have hstream : stream "0x" = .ok [⟨.number, "0x", ⟨1, 1⟩⟩, eos ⟨1, 3⟩] :=
    @stream_of_streamWithin 2 _ _ (by decide +kernel)
  refine ⟨hstream, ?_, ⟨['x'], by simp⟩, fun h => Lexeme.not_isNumber_mark (.inl rfl) (by simpa using h.holds)⟩
  simpa using IsNumber.decimal hzero.2 .none .none (by simp)

end SqfLayout.Token
