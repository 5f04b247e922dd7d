import SqfLayout.Diagnostic
import SqfLayout.Proofs.Header.Blame
import SqfLayout.Proofs.Layout.Blame
import SqfLayout.Proofs.Text.Lines

/-! What is shown of a violation points at the text that it is about. -/
namespace SqfLayout

namespace Style

/-- The escapes that styles put around a text. -/
def escapes : List Text := ["\x1b[91m", "\x1b[94m", "\x1b[1m", "\x1b[39m", "\x1b[0m"]

/-- A styled text, and the text that is left of it without its escapes. -/
inductive Strips : Text → Text → Prop
  | nil : Strips [] []
  | escape {e styled plain : Text} (he : e ∈ escapes) (h : Strips styled plain) :
      Strips (e ++ styled) plain
  | char {c : Char} {styled plain : Text} (h : Strips styled plain) : Strips (c :: styled) (c :: plain)

/-- Drops all escapes of a text, from the escape character up to the letter `m`. -/
def strip (inside : Bool) : Text → Text
  | [] => []
  | c :: rest =>
    if inside then strip (c ≠ 'm') rest
    else if c = '\x1b' then strip true rest
    else c :: strip false rest

section
variable {styled plain styled' plain' : Text}

private theorem strips_self (t : Text) : Strips t t := by
  induction t with
  | nil => exact .nil
  | cons c t ih => exact .char ih

private theorem Strips.append (h : Strips styled plain) (h' : Strips styled' plain') :
    Strips (styled ++ styled') (plain ++ plain') := by
  induction h with
  | nil => exact h'
  | escape he _ ih =>
    rw [List.append_assoc]
    exact .escape he ih
  | char _ ih => exact .char ih

private theorem strips_between {opening closing : Text} (ho : opening ∈ escapes) (hc : closing ∈ escapes)
    (t : Text) : Strips (opening ++ t ++ closing) t := by
  have hclosing : Strips closing [] := by simpa using Strips.escape hc .nil
  have h := (Strips.escape ho (strips_self t)).append hclosing
  rwa [List.append_nil] at h

private theorem strips_red (t : Text) : Strips (red t) t :=
  strips_between (by simp [escapes]) (by simp [escapes]) t

private theorem strips_blue (t : Text) : Strips (blue t) t :=
  strips_between (by simp [escapes]) (by simp [escapes]) t

private theorem strips_bold (t : Text) : Strips (bold t) t :=
  strips_between (by simp [escapes]) (by simp [escapes]) t

/-- Where the plain text holds no escape of its own, it is all that is left without escapes. -/
private theorem Strips.strip_eq (h : Strips styled plain) (hplain : '\x1b' ∉ plain) :
    strip false styled = plain := by
  induction h with
  | nil => rfl
  | @escape e styled plain he _ ih =>
    have hdrop : strip false (e ++ styled) = strip false styled := by
      simp only [escapes, List.mem_cons, List.not_mem_nil, or_false] at he
      obtain rfl | rfl | rfl | rfl | rfl := he <;> simp [strip]
    rw [hdrop, ih hplain]
  | char _ ih =>
    obtain ⟨hc, hplain⟩ := not_or.1 (List.mem_cons.not.1 hplain)
    rw [strip, if_neg Bool.false_ne_true, if_neg (Ne.symm hc), ih hplain]

end
end Style

namespace Text

private theorem exists_trim_append {a : Text} (hfirst : ∃ c ∈ a.head?, isAsciiSpace c = false)
    (hlast : ∃ c ∈ a.getLast?, isAsciiSpace c = false) (b : Text) :
    ∃ tail, tail <+: b ∧ trim (a ++ b) = a ++ tail := by
  obtain ⟨c, hc, hspace⟩ := hfirst
  obtain ⟨rest, rfl⟩ := List.head?_eq_some_iff.1 hc
  obtain ⟨d, hd, hspace'⟩ := hlast
  have hend : (c :: rest).reverse.dropWhile isAsciiSpace = (c :: rest).reverse := by
    rw [← List.head?_reverse] at hd
    obtain ⟨others, hothers⟩ := List.head?_eq_some_iff.1 hd
    rw [hothers, List.dropWhile_cons_of_neg (by simp [hspace'])]
  refine ⟨(b.reverse.dropWhile isAsciiSpace).reverse, ?_, ?_⟩
  · rw [← List.reverse_suffix, List.reverse_reverse]
    exact List.dropWhile_suffix _
  · have hstart : (c :: rest ++ b).dropWhile isAsciiSpace = c :: rest ++ b :=
      List.dropWhile_cons_of_neg (by simp [hspace])
    unfold trim
    rw [hstart, List.reverse_append, List.dropWhile_append, hend]
    cases hb : b.reverse.dropWhile isAsciiSpace with
    | nil => simp
    | cons e more => simp

private theorem length_alignRight {width : Nat} {t : Text} (h : t.length ≤ width) :
    (alignRight width t).length = width := by
  simp [alignRight, spaces, h]

end Text

namespace Diagnostic
open Style Text

def heading (d : Diagnostic) : Text :=
  "error: " ++ d.problem ++ "\n" ++ d.filename ++ ":" ++ ofNat d.position.line ++ ":" ++ ofNat d.column ++
    "\n"

/-- A text shows a line of code with a caret below it, at a column counted from one. The marks of the
margin stand in one column: in front of them, the lines are equally long. -/
inductive ShowsCaret (d : Diagnostic) (code : Text) (column : Nat) : Text → Prop
  | lines {above number below tail : Text} (habove : above.length = number.length)
      (hbelow : below.length = number.length) (hline : '\n' ∉ above ∧ '\n' ∉ number ∧ '\n' ∉ below)
      (htail : tail <+: "\n\n" ++ d.details) :
      ShowsCaret d code column (d.heading ++ "\n" ++ (above ++ "|\n") ++ (number ++ "| " ++ code ++ "\n") ++
        (below ++ "| " ++ spaces (column - 1) ++ "^") ++ tail)

private theorem exists_strips_full (d : Diagnostic) :
    ∃ shown, Strips d.full shown ∧ ShowsCaret d d.code d.position.column shown := by
  let place := "\n" ++ d.filename ++ ":" ++ ofNat d.position.line ++ ":" ++ ofNat d.column ++ "\n"
  let margin := spaces d.marginWidth ++ " " ++ blue "|"
  let number := alignRight d.marginWidth (ofNat d.position.line)
  let body := (red "error" ++ ": " ++ bold d.problem ++ place) ++ "\n" ++ (margin ++ "\n") ++
    (blue number ++ " " ++ blue "|" ++ " " ++ d.code ++ "\n") ++
    (margin ++ " " ++ red (alignRight d.column "^"))
  have hfull : d.full = trim (body ++ ("\n\n" ++ d.details)) := by
    simp [full, body, place, margin, number]
  have hfirst : body.head? = some '\x1b' := by simp [body, red]
  have hlast : body.getLast? = some 'm' := by
    have hred : (red (alignRight d.column "^")).getLast? = some 'm' := by
      unfold red
      rw [List.getLast?_append_of_ne_nil _ (by simp)]
      simp
    simp only [body, List.getLast?_append, hred, Option.some_or]
  obtain ⟨tail, htail, htrim⟩ := exists_trim_append ⟨_, hfirst, by decide⟩ ⟨_, hlast, by decide⟩
    ("\n\n" ++ d.details)
  have hheading : Strips (red "error" ++ ": " ++ bold d.problem ++ place) d.heading := by
    have h := (((strips_red "error").append (strips_self ": ")).append (strips_bold d.problem)).append
      (strips_self place)
    simpa [heading, place] using h
  have hmargin : Strips margin (spaces d.marginWidth ++ " " ++ "|") :=
    (strips_self _).append (strips_blue "|")
  have hcode : Strips (blue number ++ " " ++ blue "|" ++ " " ++ d.code ++ "\n")
      (number ++ " " ++ "| " ++ d.code ++ "\n") := by
    have h := (((strips_blue number).append (strips_self " ")).append (strips_blue "|")).append
      (strips_self (" " ++ d.code ++ "\n"))
    simpa using h
  have hcaret : Strips (margin ++ " " ++ red (alignRight d.column "^"))
      (spaces d.marginWidth ++ " " ++ "| " ++ spaces (d.position.column - 1) ++ "^") := by
    have hcolumn : d.column - 1 = d.position.column - 1 := by
      unfold column
      omega
    have h := (hmargin.append (strips_self " ")).append (strips_red (alignRight d.column "^"))
    simpa [alignRight, hcolumn] using h
  have hnumber : number.length = d.marginWidth := length_alignRight (Nat.le_max_right _ _)
  have hdigits : '\n' ∉ ofNat d.position.line := by
    intro hfeed
    have := Nat.isDigit_of_mem_toDigits (by decide) (by decide) hfeed
    simp at this
  refine ⟨_, ?_, @ShowsCaret.lines d _ _ (spaces d.marginWidth ++ " ") (number ++ " ")
    (spaces d.marginWidth ++ " ") tail ?_ ?_ ⟨?_, ?_, ?_⟩ htail⟩
  · rw [hfull, htrim]
    have h := (((hheading.append (strips_self "\n")).append (hmargin.append (strips_self "\n"))).append
      hcode).append hcaret
    simpa [body] using h.append (strips_self tail)
  · simp [spaces, hnumber]
  · simp [spaces, hnumber]
  · simp [spaces]
  · simp [number, alignRight, spaces, hdigits]
  · simp [spaces]

end Diagnostic

namespace Layout
open Header (linesOf)

/-- The line of a text with the given number, counted from one, or a question mark if there is none. -/
def lineAt (text : Text) (number : Nat) : Text := (Text.lines text)[number - 1]?.getD ['?']

/-- What a violation of a source is about. -/
inductive About (c : Convention) (source : Text) (v : Violation) : Prop
  /-- The place where no token can be read. -/
  | fault {fault : LexicalFault} {before rest : Text} (hstream : Token.stream source = .error fault)
      (hv : v = fault.violation) (hsource : source = before ++ rest)
      (hplace : v.position = Position.behind before)
  | token {tokens : List Token} {before rest : Text} (hstream : Token.stream source = .ok tokens)
      (htoken : TokenReader.AtToken tokens v) (hsource : source = before ++ rest)
      (hplace : v.position = Position.behind before)
  /-- A line of a comment that is no header. It is shown as it was read, but for the last line, which
  goes on behind the comment. -/
  | header {tokens : List Token} {before body after : Text} {i : Nat}
      (hstream : Token.stream source = .ok tokens)
      (hcomment : ⟨.blockComment, body, Position.behind before⟩ ∈ tokens)
      (hsource : source = before ++ ("/*" ++ (body ++ ("*/" ++ after))))
      (hblames : Header.Blames c (Position.behind before).line (linesOf body) v i)
      (hshown : ∀ line, (linesOf body)[i]? = some line → line <+: lineAt source v.position.line ∧
        (i + 1 < (linesOf body).length → lineAt source v.position.line = line))

/-- What is shown of a violation points at the text that it is about. -/
structure Points (c : Convention) (filename source : Text) (v : Violation) : Prop where
  line_pos : 1 ≤ v.position.line
  shows : ∃ shown, Style.Strips (v.diagnostic filename source).full shown ∧
    ('\x1b' ∉ shown → Style.strip false (v.diagnostic filename source).full = shown) ∧
    (v.diagnostic filename source).ShowsCaret (lineAt source v.position.line) v.position.column shown
  /-- Behind a place before the end, the line goes on with the source. -/
  goes_on : ∀ before rest, source = before ++ rest → rest ≠ [] → v.position = Position.behind before →
    (Text.lines rest).head? = some ((lineAt source v.position.line).drop (v.position.column - 1))
  about : About c source v

section
variable {c : Convention} {source : Text} {v : Violation}

private theorem lineAt_comment {before body after line : Text} {i : Nat} (hi : 1 ≤ i)
    (hline : (linesOf body)[i]? = some line) :
    line <+: lineAt (before ++ ("/*" ++ (body ++ ("*/" ++ after)))) ((Position.behind before).line + i) ∧
      (i + 1 < (linesOf body).length →
        lineAt (before ++ ("/*" ++ (body ++ ("*/" ++ after)))) ((Position.behind before).line + i) = line) := by
  obtain ⟨piece, hpiece, rfl⟩ : ∃ piece, (Text.splitLines body)[i]? = some piece ∧
      Text.dropReturn piece = line := by simpa [linesOf] using hline
  have hclosing : ∃ c ∈ (Text.ofString "*/" ++ after).head?, c ≠ '\n' := ⟨'*', by simp, by simp⟩
  obtain ⟨shown, hshown, hinner, hstarts⟩ := Text.lines_of_part (before ++ "/*") body hi hclosing hpiece
  have hnumber : (Position.behind before).line + i - 1 = (before ++ Text.ofString "/*").count '\n' + i := by
    simp [Position.behind]
    omega
  have hline : lineAt (before ++ ("/*" ++ (body ++ ("*/" ++ after)))) ((Position.behind before).line + i) =
      shown := by
    rw [List.append_assoc] at hshown
    rw [lineAt, hnumber, hshown]
    rfl
  rw [hline]
  exact ⟨hstarts, fun h => hinner (by simpa [linesOf] using h)⟩

private theorem about_of_answer (hmark : source.head? ≠ some '\uFEFF') (h : answer c source = .error v) :
    About c source v := by
  have hsource := Token.dropMark_of_head? hmark
  unfold answer at h
  cases hstream : Token.stream source with
  | error fault =>
    rw [hstream] at h
    cases h
    obtain ⟨before, rest, hsplit, hplace⟩ := Token.exists_place_of_fault hstream
    exact .fault hstream rfl (hsource.symm.trans hsplit) hplace
  | ok tokens =>
    rw [hstream] at h
    cases located_of_validate (Token.ends_of_stream hstream) h with
    | token htoken =>
      obtain ⟨t, ht, hplace⟩ := htoken
      obtain ⟨before, rest, hsplit, hbehind, -⟩ := Token.exists_place_of_mem hstream ht
      exact .token hstream ⟨t, ht, hplace⟩ (hsource.symm.trans hsplit) (hplace.trans hbehind)
    | @header t ht hkind hread =>
      obtain ⟨before, rest, hsplit, hbehind, hcomment⟩ := Token.exists_place_of_mem hstream ht
      obtain ⟨after, rfl⟩ := hcomment hkind
      obtain ⟨i, hblames⟩ := Header.blames_of_read hread
      obtain rfl := hsource.symm.trans hsplit
      obtain ⟨kind, body, position⟩ := t
      obtain rfl : kind = .blockComment := hkind
      obtain rfl : position = Position.behind before := hbehind
      refine .header hstream ht rfl hblames fun line hline => ?_
      rw [hblames.line_eq]
      exact lineAt_comment hblames.below hline

/-- Every violation of a source is shown with its line of the source and a caret at its column: on a
token, on the place where none can be read, or on the line of the comment where a section was expected.
The place counts lines by line feeds, the comment by its own lines and the rendering by those of the
source, and all three come to the same. -/
theorem answer_error_points (c : Convention) (filename source : Text) (v : Violation)
    (hmark : source.head? ≠ some '\uFEFF') (h : answer c source = .error v) :
    Points c filename source v := by
  have habout := about_of_answer hmark h
  obtain ⟨shown, hstrips, hcaret⟩ := (v.diagnostic filename source).exists_strips_full
  refine ⟨?_, ⟨shown, hstrips, hstrips.strip_eq, hcaret⟩, ?_, habout⟩
  · have hbehind {before : Text} (hplace : v.position = Position.behind before) : 1 ≤ v.position.line := by
      rw [hplace]
      exact Nat.le_add_right 1 _
    cases habout with
    | fault _ _ _ hplace => exact hbehind hplace
    | token _ _ _ hplace => exact hbehind hplace
    | header _ _ _ hblames =>
      rw [hblames.line_eq]
      exact Nat.le_add_left_of_le hblames.below
  · rintro before rest rfl hne hplace
    obtain ⟨line, hline, hhead⟩ := Text.lines_behind before hne
    rw [hhead, lineAt, hplace, hline]
    rfl

/-- A character that starts no token is pointed at. -/
theorem answer_error_points_unexpected : (Text.ofString "x @ y").head? ≠ some '\uFEFF' ∧
    answer .standard "x @ y" = .error ⟨.lexical (.unexpected '@'), ⟨1, 3⟩⟩ ∧
    Points .standard "fn_wait.sqf" "x @ y" ⟨.lexical (.unexpected '@'), ⟨1, 3⟩⟩ := by
  have hmark : (Text.ofString "x @ y").head? ≠ some '\uFEFF' := by simp
  have hanswer : answer .standard "x @ y" = .error ⟨.lexical (.unexpected '@'), ⟨1, 3⟩⟩ := by
    cbv
  exact ⟨hmark, hanswer, answer_error_points .standard "fn_wait.sqf" "x @ y" _ hmark hanswer⟩

end
end Layout
end SqfLayout
