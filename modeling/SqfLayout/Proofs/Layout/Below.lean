import Mathlib
import SqfLayout.Proofs.Layout.Acceptance
import SqfLayout.Proofs.Token.Evaluation
import SqfLayout.Proofs.Token.Splicing

/-! What stands below the statement that binds the parameters does not matter to a check. -/
namespace SqfLayout.Layout
open TokenReader
open Lexeme (isRun bars)
open Token (scan)

/-- A line break, and line breaks and blanks behind it. -/
def IsBreaks (run : Text) : Prop := ∃ k more, run = k :: more ∧ Text.isBreak k = true ∧ ∀ d ∈ more, isRun d = true

/-- A text that starts with neither a blank nor a line break. -/
def StartsContent (text : Text) : Prop := ∃ d more, text = d :: more ∧ isRun d = false

theorem dropMark_append {t : Text} (ht : t ≠ []) (u : Text) : Text.dropMark (t ++ u) = Text.dropMark t ++ u := by
  obtain ⟨c, rest, rfl⟩ := List.exists_cons_of_ne_nil ht
  rw [List.cons_append, Text.dropMark, Text.dropMark]
  split <;> rfl

theorem dropMark_append_cons (t : Text) {k : Char} (hk : k ≠ '\uFEFF') (u : Text) :
    Text.dropMark (t ++ k :: u) = Text.dropMark t ++ k :: u := by
  by_cases ht : t = []
  · simp [ht, Text.dropMark, hk]
  · exact dropMark_append ht _

private theorem Closes.exists_concat {c : Convention} {x : List Token} {h : Header} (hx : Closes c x h) :
    h.parameters ≠ [] ∧ ∃ y t, x = y ++ [t] ∧ t.kind = .outdent := by
  cases hx with
  | @binding _ _ _ _ outdent _ _ header bound _ _ _ _ _ _ hy houtdent =>
    refine ⟨?_, _, outdent, rfl, houtdent⟩
    generalize header.parameters = ps at hy
    cases hy <;> simp

section
variable {c : Convention} {above below t a run : Text} {h : Header} {front rest tokens : List Token}
  {outdent : Token}

private theorem exists_tokens_above {t : Token} (hstream : Token.stream (above ++ below) = .ok tokens)
    (ht : t ∈ tokens) (hkind : t.kind.isLayout = true) (hplace : t.position = .behind a)
    (habove : Text.dropMark above = a ++ run) (hrun : IsBreaks run) :
    ∃ ts, ∃ s : Token.Stage, ∀ text, StartsContent text → Token.stream (above ++ text) =
      (scan s.levels (Position.start.advance (a ++ run)) s.lineStart text).map (ts ++ ·) := by
  obtain ⟨k, more, rfl, hk, hmore⟩ := hrun
  have hne : above ≠ [] := by
    rintro rfl
    simp [Text.dropMark] at habove
  have hsource : ∀ text, Text.dropMark (above ++ text) = a ++ k :: (more ++ text) := by
    intro text
    rw [dropMark_append hne, habove]
    simp
  have hblank := Lexeme.isBlank_eq_false_of_isBreak hk
  obtain ⟨front, run, others, hfront, hcut⟩ :=
    Token.exists_cut_of_layout hstream ht hkind hplace (hsource below) (by simp)
  obtain ⟨ts, hts⟩ :=
    Token.exists_stream_of_cut (Lexeme.mem_bars_of_isBreak hk) hblank (hsource below) hcut hfront
  let s := (Token.opening (above ++ below)).behind front
  refine ⟨ts ++ Token.turnOf s.levels (Position.start.advance a) (k :: more),
    s.after (.breaks (k :: more)), fun text htext => ?_⟩
  obtain ⟨d, others, rfl, hd⟩ := htext
  have hturn : Token.Scans (Position.start.advance a) s (k :: more) (d :: others) _ _ :=
    Token.scans_turn hk hmore hd (Position.start.advance a) s
  unfold Token.Scans at hturn
  rw [List.cons_append] at hturn
  rw [hts _ _ (hsource _), hturn, Position.advance_append]
  cases scan (s.after (.breaks (k :: more))).levels _ _ (d :: others) with
  | error fault => rfl
  | ok ys => exact congrArg Except.ok (List.append_assoc _ _ _).symm

theorem exists_front_of_place {i : Indentation} {lineStart : Bool} {ts ys front rest : List Token} {t : Token}
    (hscan : scan i (Position.start.advance (a ++ run)) lineStart below = .ok ys)
    (hsplit : front ++ t :: rest = ts ++ ys) (hplace : t.position = .behind a) (hrun : run ≠ []) :
    ∃ more, ts = front ++ t :: more := by
  have hnot : t ∉ ys := by
    intro hmem
    have hle := Token.le_position_of_scan hscan t hmem
    rw [hplace, ← Position.start_advance, Position.advance_append] at hle
    exact Position.not_advance_le hrun hle
  obtain ⟨others, hts, hrest⟩ | ⟨others, rfl, hys⟩ := List.append_eq_append_iff.1 hsplit
  · cases others with
    | nil => exact absurd (show t ∈ [] ++ ys from hrest ▸ List.mem_cons_self) hnot
    | cons u more =>
      obtain ⟨rfl, -⟩ := List.cons.inj hrest
      exact ⟨more, hts⟩
  · exact absurd (hys ▸ by simp) hnot

/-- What stands below the line on which the statement was closed may be replaced by any text that lexes
there: the check takes the same tokens and gives the same answer. -/
theorem answer_below (hstream : Token.stream (above ++ below) = .ok (front ++ outdent :: rest))
    (hlayout : layout c (front ++ outdent :: rest) = .ok h rest) (hbinds : h.parameters ≠ [])
    (habove : Text.dropMark above = a ++ run) (hrun : IsBreaks run) (hplace : outdent.position = .behind a)
    (hbelow : StartsContent below) {text : Text} (htext : StartsContent text)
    (hlexes : Token.stream (above ++ text) = .ok tokens) :
    answer c (above ++ text) = .ok h ∧
      ∃ rest', tokens = front ++ outdent :: rest' ∧ layout c tokens = .ok h rest' := by
  obtain ⟨x, hcloses, hsplit⟩ := (layout_ok_iff_closes hbinds).1 hlayout
  obtain rfl : front ++ [outdent] = x :=
    (List.append_left_inj rest).1 (by rw [← hsplit]; simp)
  have hkind : outdent.kind = .outdent := by
    obtain ⟨-, y, t, hlast, ht⟩ := hcloses.exists_concat
    have hsame := congrArg List.getLast? hlast
    rw [List.getLast?_concat, List.getLast?_concat] at hsame
    exact Option.some.inj hsame ▸ ht
  obtain ⟨ts, s, habove⟩ := exists_tokens_above hstream (t := outdent) (by simp) (by rw [hkind]; rfl) hplace
    habove hrun
  have hne : run ≠ [] := by
    obtain ⟨k, more, rfl, -⟩ := hrun
    simp
  obtain ⟨more, rfl⟩ : ∃ more, ts = front ++ outdent :: more := by
    obtain ⟨ys, hys, htokens⟩ := Token.exists_of_map_ok ((habove below hbelow).symm.trans hstream)
    exact exists_front_of_place hys htokens.symm hplace hne
  obtain ⟨ys, -, htokens⟩ := Token.exists_of_map_ok ((habove text htext).symm.trans hlexes)
  have hstops : layout c tokens = .ok h (more ++ ys) :=
    (layout_ok_iff_closes hbinds).2 ⟨_, hcloses, by rw [← htokens]; simp⟩
  refine ⟨answer_eq_ok_iff.2 ⟨tokens, hlexes, layout_ok_iff.1 ⟨_, hstops⟩⟩, more ++ ys, ?_, hstops⟩
  rw [← htokens]
  simp

end

/-- A file up to the line that closes its statement. -/
def boundAbove : Text :=
  "#include \"macros.hpp\"\n/*\n    Arma At War\n\n    Author: NetFusion\n\n    Description:\n    Waits\n\n" ++
    "    Parameter(s):\n    0: Value <Number> (Default: 1)\n\n*/\n\nparams [\n    [\"_value\", 1, [0]]\n"

def boundTokens : List Token := (Token.streamWithin 40 (boundAbove ++ "];\n")).getD []

def boundHeader : Header :=
  ⟨["NetFusion"], ["Waits"], [⟨"Value", ["Number"], "1", some "_value", some (.number "1")⟩]⟩

theorem answer_below_boundAbove : answer .standard (boundAbove ++ "] + 1e5") = .ok boundHeader := by
  have hstream : Token.stream (boundAbove ++ "];\n") =
      .ok (boundTokens.take 21 ++ Indentation.token ⟨16, 23⟩ .outdent :: boundTokens.drop 22) :=
    @Token.stream_of_streamWithin 40 _ _ (by decide +kernel)
  have hlayout : layout .standard
      (boundTokens.take 21 ++ Indentation.token ⟨16, 23⟩ .outdent :: boundTokens.drop 22) =
      .ok boundHeader (boundTokens.drop 22) := by cbv
  obtain ⟨tokens, hlexes⟩ : ∃ tokens, Token.streamWithin 40 (boundAbove ++ "] + 1e5") = some tokens :=
    Option.isSome_iff_exists.1 (by decide +kernel)
  have habove : Text.dropMark boundAbove = boundAbove.dropLast ++ "\n" := by decide +kernel
  refine (answer_below hstream hlayout (by simp [boundHeader]) habove ?_ ?_ ?_ ?_
    (Token.stream_of_streamWithin hlexes)).1
  · exact ⟨'\n', [], by decide +kernel, rfl, by simp⟩
  · decide +kernel
  · exact ⟨']', ";\n", by decide +kernel, by decide +kernel⟩
  · exact ⟨']', " + 1e5", by decide +kernel, by decide +kernel⟩

end SqfLayout.Layout
