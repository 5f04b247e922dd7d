import Mathlib.Data.List.TakeWhile
import SqfLayout.Proofs.Lexeme.Context
import SqfLayout.Token.Stream

/-! The tokens of a source, piece by piece. -/
namespace SqfLayout

/-- The place of a line of text that is put at `p`, for a place in the line alone. -/
def Position.within (p q : Position) : Position := ⟨p.line, p.column + q.column - 1⟩

private theorem Position.advance_line {text : Text} (h : ∀ c ∈ text, Text.isBreak c = false)
    (p : Position) : p.advance text = ⟨p.line, p.column + text.length⟩ := by
  induction text generalizing p with
  | nil => rfl
  | cons c text ih =>
    have hc : c ≠ '\n' := by
      rintro rfl
      simpa [Text.isBreak] using h '\n' (by simp)
    rw [advance_cons, ih fun d hd => h d (by simp [hd])]
    simp only [step, if_neg hc, List.length_cons]
    rw [Nat.add_right_comm, Nat.add_assoc]

namespace Token
open Lexeme (IsOne stops)

/-- A token of a line, where the line is put at `p`. -/
def within (p : Position) (t : Token) : Token := { t with position := p.within t.position }

/-- The tokens of a text that starts at `p`, given the levels that are open. -/
def scan (i : Indentation) (p : Position) (lineStart : Bool) (text : Text) :
    Except LexicalFault (List Token) :=
  (Lexeme.cut p lineStart text).map (ofLexemes i (p.advance text))

theorem stream_eq_scan (source : Text) : stream source =
    scan ⟨((Text.dropMark source).takeWhile Text.isBlank).length, []⟩
      (Position.start.advance ((Text.dropMark source).takeWhile Text.isBlank)) true
      ((Text.dropMark source).dropWhile Text.isBlank) := by
  unfold stream scan
  dsimp only
  cases Lexeme.cut _ true ((Text.dropMark source).dropWhile Text.isBlank) <;> rfl

theorem stream_of_hash (t : Text) : stream ('#' :: t) = scan ⟨0, []⟩ .start true ('#' :: t) := by
  rw [stream_eq_scan]
  rfl

theorem exists_of_map_ok {ε α β : Type} {f : α → β} {x : Except ε α} {b : β}
    (h : x.map f = .ok b) : ∃ a, x = .ok a ∧ f a = b := by
  cases x with
  | error e => cases h
  | ok a => exact ⟨a, rfl, Except.ok.inj h⟩

theorem ofLexemes_of_isBreaks_eq_false {x : Lexeme} (hx : x.isBreaks = false) (i : Indentation)
    (final p : Position) (others : List (Position × Lexeme)) :
    ofLexemes i final ((p, x) :: others) = x.tokens p ++ ofLexemes i final others := by
  cases x with
  | breaks => cases hx
  | _ => rfl

section
variable {i : Indentation} {p : Position} {lineStart : Bool} {c : Char} {rest more : Text}
  {x : Lexeme}

theorem eq_append_drop_of_read (h : Lexeme.read lineStart c rest = .ok x) :
    c :: rest = x.text ++ (c :: rest).drop x.text.length := by
  obtain ⟨more, hmore⟩ := (Lexeme.read_isPrefix h).1
  rw [← hmore, List.drop_left]

theorem cut_of_read (h : Lexeme.read lineStart c rest = .ok x) (p : Position) :
    Lexeme.cut p lineStart (c :: rest) =
      (Lexeme.cut (p.advance x.text) x.isBreaks ((c :: rest).drop x.text.length)).map
        ((p, x) :: ·) := by
  rw [Lexeme.cut]
  split
  · rename_i hread
    rw [h] at hread
    cases hread
  · rename_i y hread
    rw [h] at hread
    cases hread
    cases Lexeme.cut (p.advance x.text) x.isBreaks ((c :: rest).drop x.text.length) <;> rfl

theorem cut_of_stuck {stuck : Lexeme.Stuck} (h : Lexeme.read lineStart c rest = .error stuck)
    (p : Position) :
    Lexeme.cut p lineStart (c :: rest) = .error ⟨stuck.problem, p.advance stuck.before⟩ := by
  rw [Lexeme.cut]
  split
  · rename_i hread
    rw [h] at hread
    cases hread
    rfl
  · rename_i hread
    rw [h] at hread
    cases hread

theorem scan_of_read (h : Lexeme.read lineStart c rest = .ok x) (hx : x.isBreaks = false)
    (htext : c :: rest = x.text ++ more) (i : Indentation) (p : Position) :
    scan i p lineStart (c :: rest) =
      (scan i (p.advance x.text) false more).map (x.tokens p ++ ·) := by
  unfold scan
  rw [cut_of_read h, htext, List.drop_left, hx, Position.advance_append]
  cases Lexeme.cut (p.advance x.text) false more with
  | error fault => rfl
  | ok others => exact congrArg Except.ok (ofLexemes_of_isBreaks_eq_false hx _ _ _ _)

theorem scan_of_ne_hash (hc : c ≠ '#') (i : Indentation) (p : Position) :
    scan i p true (c :: rest) = scan i p false (c :: rest) := by
  have hread : Lexeme.read true c rest = Lexeme.read false c rest :=
    Lexeme.read_eq_of_ne_hash hc rest
  have hcut : Lexeme.cut p true (c :: rest) = Lexeme.cut p false (c :: rest) := by
    cases h : Lexeme.read false c rest with
    | error stuck => rw [cut_of_stuck (hread.trans h), cut_of_stuck h]
    | ok x => rw [cut_of_read (hread.trans h), cut_of_read h]
  unfold scan
  rw [hcut]

theorem cut_cons_ne_nil : Lexeme.cut p lineStart (c :: rest) ≠ .ok [] := by
  intro h
  cases hread : Lexeme.read lineStart c rest with
  | error stuck =>
    rw [cut_of_stuck hread] at h
    cases h
  | ok x =>
    rw [cut_of_read hread] at h
    obtain ⟨others, -, hnil⟩ := exists_of_map_ok h
    cases hnil

/-- A run of line breaks at the very end changes no level. -/
theorem scan_last_run {run : Text} (hc : Text.isBreak c = true) (hrun : ∀ d ∈ run, Lexeme.isRun d = true)
    (i : Indentation) (p : Position) (lineStart : Bool) : scan i p lineStart (c :: run) =
      .ok (Indentation.blanks p (c :: run) ++
        Indentation.token p .newline :: i.finish (p.advance (c :: run))) := by
  have hall : ∀ d ∈ c :: run, Lexeme.isRun d = true := by
    simpa [Lexeme.isRun, hc] using hrun
  have hread : Lexeme.read lineStart c run = .ok (.breaks (c :: run)) := by
    rw [Lexeme.read_breaks hc, List.takeWhile_eq_self_iff.2 hall]
  unfold scan
  rw [cut_of_read hread]
  simp [Lexeme.text, Lexeme.isBreaks, Lexeme.cut, Except.map, ofLexemes]

theorem scan_newline (i : Indentation) (p : Position) : scan i p lineStart ['\n'] =
    .ok (Indentation.token p .newline :: i.finish (p.step '\n')) := by
  have hblanks : Indentation.blanks p ['\n'] = [] := rfl
  rw [scan_last_run rfl (by simp), hblanks]
  rfl

end

/-- What a scan knows between two pieces: the levels that are open, and whether a line starts. -/
structure Stage where
  levels : Indentation
  lineStart : Bool

/-- A piece of text at `p`, before the text `more`, gives the tokens `x` and leads from one stage to
another. -/
def Scans (p : Position) (s : Stage) (piece more : Text) (x : List Token) (s' : Stage) : Prop :=
  scan s.levels p s.lineStart (piece ++ more) =
    (scan s'.levels (p.advance piece) s'.lineStart more).map (x ++ ·)

theorem Scans.append {p : Position} {s s' s'' : Stage} {a b more : Text} {x y : List Token}
    (ha : Scans p s a (b ++ more) x s') (hb : Scans (p.advance a) s' b more y s'') :
    Scans p s (a ++ b) more (x ++ y) s'' := by
  unfold Scans at *
  rw [List.append_assoc, ha, hb, Position.advance_append]
  cases scan s''.levels ((p.advance a).advance b) s''.lineStart more with
  | error fault => rfl
  | ok others => exact congrArg Except.ok (List.append_assoc x y others).symm

theorem Scans.scan_eq_ok {p : Position} {s s' : Stage} {piece more : Text} {x y : List Token}
    (h : Scans p s piece more x s')
    (hmore : scan s'.levels (p.advance piece) s'.lineStart more = .ok y) :
    scan s.levels p s.lineStart (piece ++ more) = .ok (x ++ y) := by
  rw [h, hmore]
  rfl

theorem scans_of_read {p : Position} {s : Stage} {c : Char} {rest more : Text} {x : Lexeme}
    (h : Lexeme.read s.lineStart c (rest ++ more) = .ok x) (hx : x.isBreaks = false)
    (htext : x.text = c :: rest) :
    Scans p s (c :: rest) more (x.tokens p) ⟨s.levels, false⟩ := by
  unfold Scans
  have hcons : c :: (rest ++ more) = x.text ++ more := by simp [htext]
  rw [List.cons_append, scan_of_read h hx hcons, htext]

private theorem scans_inclusion {p : Position} {i : Indentation} {path : Text}
    (hpath : ∀ c ∈ path, c ≠ '"' ∧ Text.isBreak c = false) (more : Text) :
    Scans p ⟨i, true⟩ ('#' :: ("include \"" ++ path ++ ['"'])) more
      [⟨.preprocessorStart, "#", p⟩, ⟨.preprocessorInclude, path, p.step '#'⟩] ⟨i, false⟩ := by
  have hholds : ∀ c ∈ path, PathStyle.quotes.holds c = true := fun c hc => by
    simp [PathStyle.holds, PathStyle.closing, hpath c hc]
  refine scans_of_read (x := .inclusion " " .quotes path) ?_ rfl ?_
  · rw [List.append_assoc]
    exact Lexeme.read_inclusion hholds
  · simp [Lexeme.text, PathStyle.opening, PathStyle.closing]

theorem scans_comment {p : Position} {s : Stage} {body : Text} (hbody : ¬ ['*', '/'] <:+: body)
    (more : Text) : Scans p s ('/' :: ('*' :: (body ++ ['*', '/']))) more [⟨.blockComment, body, p⟩]
      ⟨s.levels, false⟩ := by
  refine scans_of_read (x := .blockComment body) ?_ rfl (by simp [Lexeme.text])
  rw [List.cons_append, List.append_assoc]
  exact Lexeme.read_comment hbody

theorem scans_breaks {p : Position} {s : Stage} {run more : Text} {c d : Char}
    (hc : Text.isBreak c = true) (hrun : ∀ e ∈ run, Lexeme.isRun e = true)
    (hd : Lexeme.isRun d = false) : Scans p s (c :: run) (d :: more)
      (Indentation.blanks p (c :: run) ++
        (s.levels.enter (Indentation.width (c :: run))).2.map (Indentation.token p))
      ⟨(s.levels.enter (Indentation.width (c :: run))).1, true⟩ := by
  have hall : ∀ e ∈ c :: run, Lexeme.isRun e = true := by
    simpa [Lexeme.isRun, hc] using hrun
  have hread : Lexeme.read s.lineStart c (run ++ d :: more) = .ok (.breaks (c :: run)) := by
    rw [Lexeme.read_breaks hc, ← List.cons_append, List.takeWhile_append_of_pos hall]
    simp [hd]
  unfold Scans scan
  rw [List.cons_append, cut_of_read hread, ← List.cons_append]
  simp only [Lexeme.text, Lexeme.isBreaks, List.drop_left, Position.advance_append]
  cases hcut : Lexeme.cut (p.advance (c :: run)) true (d :: more) with
  | error fault => rfl
  | ok others =>
    have hne : others ≠ [] := by
      rintro rfl
      exact cut_cons_ne_nil hcut
    obtain ⟨y, ys, rfl⟩ := List.exists_cons_of_ne_nil hne
    simp [Except.map, ofLexemes]

theorem scans_opening {path : Text} (hpath : ∀ c ∈ path, c ≠ '"' ∧ Text.isBreak c = false) (more : Text) :
    ∃ hash file line, hash.kind = .preprocessorStart ∧ file.kind = .preprocessorInclude ∧
      file.value = path ∧ line.kind = .newline ∧
      Scans .start ⟨⟨0, []⟩, true⟩ ('#' :: ("include \"" ++ path ++ ['"']) ++ ['\n'])
        ('/' :: '*' :: more) [hash, file, line] ⟨⟨0, []⟩, true⟩ := by
  let p := Position.start.advance ('#' :: ("include \"" ++ path ++ ['"']))
  have hinclusion := scans_inclusion (p := .start) (i := ⟨0, []⟩) hpath (['\n'] ++ '/' :: '*' :: more)
  have hline : Scans p ⟨⟨0, []⟩, false⟩ ['\n'] ('/' :: '*' :: more) [Indentation.token p .newline]
      ⟨⟨0, []⟩, true⟩ := scans_breaks (d := '/') rfl (by simp) (by decide)
  exact ⟨⟨.preprocessorStart, "#", .start⟩, ⟨.preprocessorInclude, path, Position.start.step '#'⟩,
    Indentation.token p .newline, rfl, rfl, rfl, rfl, hinclusion.append hline⟩

/-- Within a line, a piece of text gives tokens and changes no level. -/
def Emits (p : Position) (piece more : Text) (x : List Token) : Prop :=
  ∀ i, Scans p ⟨i, false⟩ piece more x ⟨i, false⟩

theorem Emits.append {p : Position} {a b more : Text} {x y : List Token}
    (ha : Emits p a (b ++ more) x) (hb : Emits (p.advance a) b more y) :
    Emits p (a ++ b) more (x ++ y) := fun i => (ha i).append (hb i)

/-- At the start of a line a piece gives the same, but for a directive. -/
theorem Emits.lineStart {p : Position} {c : Char} {piece more : Text} {x : List Token}
    (h : Emits p (c :: piece) more x) (hc : c ≠ '#') (i : Indentation) :
    Scans p ⟨i, true⟩ (c :: piece) more x ⟨i, false⟩ := (scan_of_ne_hash hc i p).trans (h i)

theorem emits_of_read {p : Position} {c : Char} {rest more : Text} {x : Lexeme}
    (h : Lexeme.read false c (rest ++ more) = .ok x) (hx : x.isBreaks = false)
    (htext : x.text = c :: rest) : Emits p (c :: rest) more (x.tokens p) :=
  fun i => scans_of_read (s := ⟨i, false⟩) h hx htext

theorem emits_nil {p : Position} {more : Text} : Emits p [] more [] := by
  intro i
  show scan i p false more = (scan i p false more).map ([] ++ ·)
  cases scan i p false more <;> rfl

theorem emits_mark {k : Char} {kind : Kind} (hk : Lexeme.mark? k = some kind) (p : Position)
    (more : Text) : Emits p [k] more [⟨kind, [k], p⟩] :=
  emits_of_read (x := .plain kind [k]) (Lexeme.read_mark hk more) rfl rfl

theorem emits_space {p : Position} {gap more : Text} (hne : gap ≠ [])
    (hgap : ∀ c ∈ gap, Text.isBlank c = true) (hmore : ∀ c ∈ more.head?, Text.isBlank c = false) :
    Emits p gap more [⟨.space, gap, p⟩] := by
  obtain ⟨c, rest, rfl⟩ := List.exists_cons_of_ne_nil hne
  exact emits_of_read (x := .plain .space (c :: rest)) (Lexeme.read_blanks hgap hmore) rfl rfl

theorem emits_string {p : Position} {v more : Text} (hv : '"' ∉ v) (hmore : more.head? ≠ some '"') :
    Emits p ('"' :: (v ++ ['"'])) more [⟨.string, v, p⟩] := by
  refine emits_of_read (x := .string '"' v) ?_ rfl rfl
  rw [List.append_assoc]
  exact Lexeme.read_string hv hmore

theorem emits_one {p : Position} {kind : Kind} {text more : Text} {k : Char}
    (h : IsOne kind text) (hkind : kind = .command ∨ kind = .number) (hk : k ∈ stops) :
    Emits p text (k :: more) [⟨kind, text, p⟩] := by
  obtain ⟨c, rest, rfl, _⟩ := h.exists_cons hkind
  exact emits_of_read (x := .plain kind (c :: rest)) (h.read_append hkind hk) rfl rfl

theorem Emits.mark {p : Position} {k : Char} {kind : Kind} {piece more : Text} {x : List Token}
    (hk : Lexeme.mark? k = some kind) (h : Emits (p.step k) piece more x) :
    Emits p (k :: piece) more (⟨kind, [k], p⟩ :: x) := (emits_mark hk p (piece ++ more)).append h

theorem Emits.blank {p : Position} {piece more : Text} {x : List Token}
    (hpiece : ∀ c ∈ (piece ++ more).head?, Text.isBlank c = false)
    (h : Emits (p.step ' ') piece more x) :
    Emits p (' ' :: piece) more (⟨.space, [' '], p⟩ :: x) := by
  have hspace : Emits p [' '] (piece ++ more) [⟨.space, [' '], p⟩] :=
    emits_space (by simp) (by simp [Text.isBlank]) hpiece
  exact hspace.append h

section
variable {p : Position} {k : Char}

private theorem tokens_within (x : Lexeme) (p : Position) (n : Nat) :
    x.tokens ⟨p.line, p.column + n⟩ = (x.tokens ⟨1, n + 1⟩).map (within p) := by
  cases x <;> simp [Lexeme.tokens, within, Position.within, Position.step, Nat.add_assoc]

private theorem cut_line_cases {c : Char} {rest : Text} {n : Nat} {xs : List (Position × Lexeme)}
    (hcut : Lexeme.cut ⟨1, n + 1⟩ false (c :: rest) = .ok xs)
    (hline : ∀ d ∈ c :: rest, Text.isBreak d = false) :
    ∃ x left others, Lexeme.read false c rest = .ok x ∧ x.text ++ left = c :: rest ∧ x.text ≠ [] ∧
      x.isBreaks = false ∧ (∀ t, x = .plain .lineComment t → left = []) ∧
      xs = (⟨1, n + 1⟩, x) :: others ∧
      Lexeme.cut ⟨1, n + x.text.length + 1⟩ false left = .ok others := by
  cases hread : Lexeme.read false c rest with
  | error stuck =>
    rw [cut_of_stuck hread] at hcut
    cases hcut
  | ok x =>
    obtain ⟨⟨left, htext⟩, hne⟩ := Lexeme.read_isPrefix hread
    obtain ⟨hbreaks, hcomment⟩ := Lexeme.read_within_line hread hline
    have hx : ∀ d ∈ x.text, Text.isBreak d = false := fun d hd => hline d (by simp [← htext, hd])
    rw [cut_of_read hread, ← htext, List.drop_left, hbreaks, Position.advance_line hx,
      Nat.add_right_comm] at hcut
    obtain ⟨others, hcut', rfl⟩ := exists_of_map_ok hcut
    refine ⟨x, left, others, rfl, htext, hne, hbreaks, ?_, rfl, hcut'⟩
    rintro t rfl
    obtain rfl := hcomment t rfl
    simpa using htext

private theorem isBreaks_of_cut {text : Text} {n : Nat} {xs : List (Position × Lexeme)}
    (hcut : Lexeme.cut ⟨1, n + 1⟩ false text = .ok xs)
    (hline : ∀ c ∈ text, Text.isBreak c = false) : ∀ y ∈ xs, y.2.isBreaks = false := by
  induction xs generalizing text n with
  | nil => simp
  | cons y xs ih =>
    cases text with
    | nil =>
      rw [Lexeme.cut] at hcut
      cases hcut
    | cons c rest =>
      obtain ⟨x, left, others, _, htext, _, hbreaks, _, hxs, hcut'⟩ := cut_line_cases hcut hline
      cases hxs
      have hleft := ih hcut' fun d hd => hline d (by simp [← htext, hd])
      simpa [hbreaks] using hleft

private theorem emits_lexemes {text : Text} {n : Nat} {xs : List (Position × Lexeme)}
    (hcut : Lexeme.cut ⟨1, n + 1⟩ false text = .ok xs) (hline : ∀ c ∈ text, Text.isBreak c = false)
    (hlast : ∀ y ∈ xs.getLast?, ∀ t, y.2 ≠ .plain .lineComment t) (hk : k ∈ stops)
    (hspace : k ≠ ' ') (p : Position) (more : Text) : Emits ⟨p.line, p.column + n⟩ text (k :: more)
      ((xs.flatMap fun y => y.2.tokens y.1).map (within p)) := by
  induction xs generalizing text n with
  | nil =>
    cases text with
    | nil => exact emits_nil
    | cons c rest => exact absurd hcut cut_cons_ne_nil
  | cons y xs ih =>
    cases text with
    | nil =>
      rw [Lexeme.cut] at hcut
      cases hcut
    | cons c rest =>
      obtain ⟨x, left, others, hread, htext, hne, hbreaks, hcomment, hxs, hcut'⟩ :=
        cut_line_cases hcut hline
      cases hxs
      have hleft : ∀ d ∈ left, Text.isBreak d = false := fun d hd => hline d (by simp [← htext, hd])
      have hx : ∀ d ∈ x.text, Text.isBreak d = false := fun d hd => hline d (by simp [← htext, hd])
      have hnocomment : ∀ t, x ≠ .plain .lineComment t := by
        intro t ht
        rw [hcomment t ht, Lexeme.cut] at hcut'
        cases hcut'
        exact hlast _ rfl t ht
      have hlater : ∀ y ∈ xs.getLast?, ∀ t, y.2 ≠ .plain .lineComment t :=
        fun y hy => hlast y (by simp [List.getLast?_cons, Option.mem_def.1 hy])
      have hothers := ih hcut' hleft hlater
      have hfirst : Emits ⟨p.line, p.column + n⟩ x.text (left ++ k :: more)
          (x.tokens ⟨p.line, p.column + n⟩) := by
        obtain ⟨d, t, ht⟩ := List.exists_cons_of_ne_nil hne
        rw [ht, List.cons_append] at htext
        obtain ⟨rfl, rfl⟩ := List.cons.inj htext
        have := Lexeme.read_append hread hk (hline d (by simp)) (fun h => absurd h hspace) hnocomment
          more
        rw [List.append_assoc] at this
        exact ht ▸ emits_of_read this hbreaks ht
      rw [← Nat.add_assoc, ← Position.advance_line (p := ⟨p.line, p.column + n⟩) hx] at hothers
      have hboth := hfirst.append hothers
      rw [htext] at hboth
      simpa [tokens_within] using hboth

private theorem ofLexemes_of_plain {xs : List (Position × Lexeme)}
    (h : ∀ y ∈ xs, y.2.isBreaks = false) (i : Indentation) (final : Position) :
    ofLexemes i final xs = (xs.flatMap fun y => y.2.tokens y.1) ++ i.finish final := by
  induction xs with
  | nil => rfl
  | cons y xs ih =>
    have hrest := ih fun z hz => h z (by simp [hz])
    have hy : y.2.isBreaks = false := h y (by simp)
    rw [ofLexemes_of_isBreaks_eq_false hy, hrest, List.flatMap_cons, List.append_assoc]

private theorem head?_scan_hash {i : Indentation} {p : Position} {rest : Text} {x : List Token}
    (h : scan i p true ('#' :: rest) = .ok x) : ∃ t ∈ x.head?, t.kind = .preprocessorStart := by
  cases hread : Lexeme.read true '#' rest with
  | error stuck =>
    rw [scan, cut_of_stuck hread] at h
    cases h
  | ok y =>
    obtain ⟨left, htext⟩ := (Lexeme.read_isPrefix hread).1
    obtain ⟨hy, t, others, ht, hkind⟩ := Lexeme.read_hash hread p
    rw [scan_of_read hread hy htext.symm, ht] at h
    obtain ⟨more, -, rfl⟩ := exists_of_map_ok h
    exact ⟨t, rfl, hkind⟩

/-- At the start of a line, only a directive is scanned in another way than within the line. -/
private theorem scan_within_line {i : Indentation} {p : Position} {text : Text} {x : List Token}
    (h : scan i p true text = .ok x) (hfirst : ∀ t ∈ x.head?, t.kind ≠ .preprocessorStart) :
    scan i p false text = .ok x := by
  cases text with
  | nil => simpa [scan, Lexeme.cut] using h
  | cons c rest =>
    rwa [scan_of_ne_hash] at h
    rintro rfl
    obtain ⟨t, ht, hkind⟩ := head?_scan_hash h
    exact hfirst t ht hkind

/-- The lexemes of a line give all its tokens but the last, which marks the end. -/
private theorem exists_cut_of_scan {n : Nat} {text : Text} {x : List Token} {q : Position}
    (h : scan ⟨n, []⟩ ⟨1, n + 1⟩ false text = .ok (x ++ [Token.eos q]))
    (hline : ∀ c ∈ text, Text.isBreak c = false) : ∃ xs,
      Lexeme.cut ⟨1, n + 1⟩ false text = .ok xs ∧ x = xs.flatMap fun y => y.2.tokens y.1 := by
  unfold scan at h
  obtain ⟨xs, hcut, hx⟩ := exists_of_map_ok h
  rw [ofLexemes_of_plain (isBreaks_of_cut hcut hline)] at hx
  exact ⟨xs, hcut, (List.append_inj' hx rfl).1.symm⟩

theorem dropMark_of_head? {text : Text} (h : text.head? ≠ some '\uFEFF') :
    Text.dropMark text = text := by
  cases text with
  | nil => rfl
  | cons c text =>
    have hc : c ≠ '\uFEFF' := by simpa using h
    simp [Text.dropMark, hc]

/-- The tokens of a line on its own are also its tokens behind a blank and before a separator, at
their new places. The line may have blanks at its start, which go with the one before it. -/
theorem emits_line {text : Text} {x : List Token} {q : Position}
    (hstream : stream text = .ok (x ++ [Token.eos q])) (hline : ∀ c ∈ text, Text.isBreak c = false)
    (hmark : text.head? ≠ some '\uFEFF')
    (hfirst : ∀ t ∈ x.head?, t.kind ≠ .preprocessorStart)
    (hlast : ∀ t ∈ x.getLast?, t.kind ≠ .lineComment) (hk : k ∈ stops) (hspace : k ≠ ' ')
    (p : Position) (more : Text) : ∃ gap : Token, gap.kind = .space ∧
      Emits p (' ' :: text) (k :: more) (gap :: x.map (within (p.step ' '))) := by
  have hmargin : ∀ c ∈ text.takeWhile Text.isBlank, Text.isBlank c = true :=
    List.all_eq_true.1 List.all_takeWhile
  have hsplit : text.takeWhile Text.isBlank ++ text.dropWhile Text.isBlank = text :=
    List.takeWhile_append_dropWhile
  have hbody : ∀ c ∈ (text.dropWhile Text.isBlank ++ k :: more).head?, Text.isBlank c = false := by
    cases hdrop : text.dropWhile Text.isBlank with
    | nil => simpa using Lexeme.isBlank_stop hk hspace
    | cons c rest =>
      have hc := Lexeme.head?_dropWhile_eq_false Text.isBlank text
      rw [hdrop] at hc
      exact hc
  rw [stream_eq_scan, dropMark_of_head? hmark] at hstream
  generalize text.takeWhile Text.isBlank = margin at *
  generalize text.dropWhile Text.isBlank = body at *
  subst hsplit
  have hmarginLine : ∀ c ∈ margin, Text.isBreak c = false := fun c hc => hline c (by simp [hc])
  have hbodyLine : ∀ c ∈ body, Text.isBreak c = false := fun c hc => hline c (by simp [hc])
  have hstart : Position.start.advance margin = ⟨1, margin.length + 1⟩ := by
    simp [Position.advance_line hmarginLine, Position.start, Nat.add_comm]
  rw [hstart] at hstream
  have hwithin : scan ⟨margin.length, []⟩ ⟨1, margin.length + 1⟩ false body =
      .ok (x ++ [Token.eos q]) := by
    refine scan_within_line hstream ?_
    cases x with
    | nil => simp [Token.eos]
    | cons t x => simpa using hfirst
  obtain ⟨xs, hcut, hx⟩ := exists_cut_of_scan hwithin hbodyLine
  have hcomment : ∀ y ∈ xs.getLast?, ∀ t, y.2 ≠ .plain .lineComment t := by
    intro y hy t ht
    obtain ⟨init, rfl⟩ := List.getLast?_eq_some_iff.1 hy
    refine hlast ⟨.lineComment, t, y.1⟩ ?_ rfl
    simp [hx, ht, Lexeme.tokens]
  have hlexemes := emits_lexemes hcut hbodyLine hcomment hk hspace (p.step ' ') more
  rw [← hx, ← Position.advance_line hmarginLine (p.step ' ')] at hlexemes
  have hgap : Emits p (' ' :: margin) (body ++ k :: more) [⟨.space, ' ' :: margin, p⟩] :=
    emits_space (by simp) (by simpa [Text.isBlank] using hmargin) hbody
  exact ⟨⟨.space, ' ' :: margin, p⟩, rfl, hgap.append hlexemes⟩

end

end Token
end SqfLayout
