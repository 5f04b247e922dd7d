import Mathlib.Data.List.Induction
import SqfLayout.Proofs.Returns.Lexeme
import SqfLayout.Proofs.Token.Pieces

/-! Tokens of a source that has a carriage return before every line feed. -/
namespace SqfLayout
open Text (withReturns)

namespace Indentation

private theorem countBreaks_withReturns {run : Text} (h : '\r' ∉ run) :
    countBreaks run.withReturns = countBreaks run := by
  induction run with
  | nil => rfl
  | cons c run ih =>
    simp only [List.mem_cons, not_or] at h
    have hc : c ≠ '\r' := Ne.symm h.1
    by_cases hfeed : c = '\n'
    · subst hfeed
      rw [countBreaks_cons fun hpair => hc hpair.1, ← ih h.2]
      rfl
    · have hapart (t : Text) : ¬ (c = '\r' ∧ t.head? = some '\n') := fun hpair => hc hpair.1
      rw [Text.withReturns_cons hfeed, countBreaks_cons (hapart _), countBreaks_cons (hapart _), ih h.2]

private theorem width_withReturns (run : Text) : width run.withReturns = width run := by
  unfold width
  induction run using List.reverseRecOn with
  | nil => rfl
  | append_singleton run c ih =>
    by_cases hc : c = '\n'
    · subst hc
      simp [Text.isBlank]
    · by_cases hblank : Text.isBlank c = true
      · simpa [Text.withReturns_cons hc, hblank] using ih
      · simp [Text.withReturns_cons hc, hblank]

end Indentation

namespace Lexeme

private theorem isBreak_of_holds {style : PathStyle} {c : Char} (h : style.holds c = true) :
    Text.isBreak c = false := by
  simp only [PathStyle.holds, Bool.and_eq_true, Bool.not_eq_true'] at h
  exact h.2

private theorem WellFormed.text_withReturns {x : Lexeme} (h : x.WellFormed) :
    x.withReturns.text = x.text.withReturns := by
  cases h with
  | breaks => rfl
  | directive => exact (Text.withReturns_cons (by decide) _).symm
  | blockComment =>
    simp [withReturns, text, Text.withReturns_cons]
  | @inclusion gap style path hgap hpath =>
    have hname : ∀ c ∈ ("#include" : Text), Text.isBreak c = false := by simp [Text.isBreak]
    have hopening : Text.isBreak style.opening = false := by cases style <;> rfl
    have hclosing : Text.isBreak style.closing = false := by cases style <;> rfl
    have hline : ∀ c ∈ (Lexeme.inclusion gap style path).text, Text.isBreak c = false := by
      refine List.forall_mem_append.2 ⟨List.forall_mem_append.2 ⟨List.forall_mem_append.2 ⟨hname, ?_⟩,
        List.forall_mem_cons.2 ⟨hopening, ?_⟩⟩, List.forall_mem_singleton.2 hclosing⟩
      · exact fun c hc => isBreak_eq_false_of_isBlank (hgap c hc)
      · exact fun c hc => isBreak_of_holds (hpath c hc)
    exact (Text.withReturns_line hline).symm
  | @string quote body hquote _ =>
    have hfeed : quote ≠ '\n' := by
      rintro rfl
      simp [quotes] at hquote
    simp [withReturns, text, Text.withReturns_cons hfeed]
  | plain _ _ hline => exact (Text.withReturns_line hline).symm

private theorem exists_read_withReturns {c : Char} {rest : Text} (h : '\r' ∉ c :: rest) (lineStart : Bool) :
    ∃ d more, Text.withReturns (c :: rest) = d :: more ∧
      read lineStart d more = (read lineStart c rest).map withReturns := by
  by_cases hc : c = '\n'
  · subst hc
    refine ⟨'\r', _, rfl, ?_⟩
    have hrun := Text.takeWhile_withReturns_of_breaks (p := isRun) (t := '\n' :: rest)
      (Text.forall_isBreak.2 ⟨rfl, rfl⟩)
    rw [read_breaks rfl, read_breaks rfl]
    exact congrArg (fun run => Except.ok (breaks run)) hrun
  · simp only [List.mem_cons, not_or] at h
    refine ⟨c, _, Text.withReturns_cons hc rest, read_withReturns ?_ h.2⟩
    simp [Text.isBreak, hc, Ne.symm h.1]

/-- Lexemes with their places, where lines end in two characters. -/
def allWithReturns (xs : List (Position × Lexeme)) : List (Position × Lexeme) :=
  xs.map fun y => (y.1, y.2.withReturns)

private theorem cut_withReturns {t : Text} (h : '\r' ∉ t) (p : Position) (lineStart : Bool) :
    cut p lineStart t.withReturns = (cut p lineStart t).map allWithReturns := by
  induction hn : t.length using Nat.strongRecOn generalizing t p lineStart with
  | _ n ih =>
    cases t with
    | nil => rw [cut, Text.withReturns_nil, cut]; rfl
    | cons c rest =>
      obtain ⟨d, more, hwhole, hread⟩ := exists_read_withReturns h lineStart
      rw [hwhole]
      cases hx : read lineStart c rest with
      | error stuck =>
        rw [hx] at hread
        rw [Token.cut_of_stuck hx, Token.cut_of_stuck hread]
        rfl
      | ok x =>
        rw [hx] at hread
        obtain ⟨left, hleft⟩ := (read_isPrefix hx).1
        have hdrop : (d :: more).drop x.withReturns.text.length =
            Text.withReturns ((c :: rest).drop x.text.length) := by
          rw [← hwhole, ← hleft, Text.withReturns_append, (read_wellFormed hx).text_withReturns,
            List.drop_left, List.drop_left]
        have hshort := length_drop_lt hx
        have hmem : '\r' ∉ (c :: rest).drop x.text.length := fun hmem =>
          h ((List.drop_suffix _ _).subset hmem)
        rw [Token.cut_of_read hx, Token.cut_of_read hread, hdrop, isBreaks_withReturns,
          (read_wellFormed hx).text_withReturns, Position.advance_withReturns,
          ih _ (by omega) hmem _ _ rfl]
        cases cut (p.advance x.text) x.isBreaks ((c :: rest).drop x.text.length) <;> rfl

end Lexeme

namespace Token

/-- The same token where lines end in two characters. A line break has one token in either case. -/
def withReturns (t : Token) : Token :=
  if t.kind = .newline then t else { t with value := t.value.withReturns }

/-- The kinds of token whose value a check looks into. -/
def lineKinds : List Kind := [.preprocessorInclude, .command, .number, .operator]

/-- A token of a source without carriage returns. The kinds whose value is looked into stay on a
line. -/
structure IsClean (t : Token) : Prop where
  noReturn : '\r' ∉ t.value
  noFeed : t.kind ∈ lineKinds → '\n' ∉ t.value

theorem withReturns_of_ne {t : Token} (h : t.kind ≠ .newline) :
    t.withReturns = { t with value := t.value.withReturns } := if_neg h

theorem kind_withReturns (t : Token) : t.withReturns.kind = t.kind := by
  unfold withReturns
  split <;> rfl

theorem position_withReturns (t : Token) : t.withReturns.position = t.position := by
  unfold withReturns
  split <;> rfl

private theorem tokens_withReturns {x : Lexeme} (h : x.WellFormed) (p : Position) :
    x.withReturns.tokens p = (x.tokens p).map withReturns := by
  cases h with
  | breaks => rfl
  | inclusion hgap hpath =>
    have hline := Text.withReturns_line fun c hc => Lexeme.isBreak_of_holds (hpath c hc)
    simp [Lexeme.withReturns, Lexeme.tokens, withReturns, hline, Text.withReturns_of_not_mem]
  | directive => simp [Lexeme.withReturns, Lexeme.tokens, withReturns, Text.withReturns_of_not_mem]
  | blockComment => rfl
  | string => rfl
  | @plain kind text hkind _ hline =>
    have hne : kind ≠ .newline := by
      rintro rfl
      cases hkind
    simp [Lexeme.withReturns, Lexeme.tokens, withReturns, hne, Text.withReturns_line hline]

private theorem token_withReturns (p : Position) (kind : Kind) :
    (Indentation.token p kind).withReturns = Indentation.token p kind := by
  by_cases hkind : kind = .newline <;> simp [Indentation.token, withReturns, hkind]

private theorem blanks_withReturns {run : Text} (h : '\r' ∉ run) (p : Position) :
    Indentation.blanks p run.withReturns = (Indentation.blanks p run).map withReturns := by
  unfold Indentation.blanks
  rw [Indentation.countBreaks_withReturns h]
  split
  · rw [List.map_singleton, token_withReturns]
  · rfl

private theorem finish_withReturns (i : Indentation) (p : Position) :
    (i.finish p).map withReturns = i.finish p := by
  have heos : (eos p).withReturns = eos p := rfl
  simp only [Indentation.finish, List.map_append, List.map_map, Function.comp_def,
    token_withReturns, List.map_singleton, heos]

/-- Lexemes that are neither broken nor hold a carriage return. -/
def AllClean (xs : List (Position × Lexeme)) : Prop :=
  ∀ y ∈ xs, y.2.WellFormed ∧ '\r' ∉ y.2.text

private theorem ofLexemes_withReturns {xs : List (Position × Lexeme)} (h : AllClean xs) (i : Indentation)
    (final : Position) :
    ofLexemes i final (Lexeme.allWithReturns xs) = (ofLexemes i final xs).map withReturns := by
  induction xs generalizing i with
  | nil => exact (finish_withReturns i final).symm
  | cons y xs ih =>
    obtain ⟨⟨hwell, hreturn⟩, hxs⟩ := List.forall_mem_cons.1 h
    obtain ⟨p, x⟩ := y
    have ih (i : Indentation) := ih hxs i
    cases hx : x.isBreaks with
    | true =>
      cases x with
      | breaks run =>
        have hempty : (Lexeme.allWithReturns xs).isEmpty = xs.isEmpty := List.isEmpty_map
        show ofLexemes i final ((p, .breaks run.withReturns) :: Lexeme.allWithReturns xs) = _
        have hrun : '\r' ∉ run := hreturn
        simp only [ofLexemes, hempty, Indentation.width_withReturns, blanks_withReturns hrun, ih,
          List.map_append, List.map_map, Function.comp_def, token_withReturns]
      | _ => cases hx
    | false =>
      have hx' : x.withReturns.isBreaks = false := by rw [Lexeme.isBreaks_withReturns, hx]
      show ofLexemes i final ((p, x.withReturns) :: Lexeme.allWithReturns xs) = _
      rw [ofLexemes_of_isBreaks_eq_false hx', ofLexemes_of_isBreaks_eq_false hx, ih, List.map_append, tokens_withReturns hwell]

private theorem isClean_token {kind : Kind} (h : kind.isLayout = true) (p : Position) :
    (Indentation.token p kind).IsClean := by
  constructor
  · unfold Indentation.token
    split <;> simp
  · intro hkind
    have hkind : kind ∈ lineKinds := hkind
    simp only [lineKinds, List.mem_cons, List.not_mem_nil, or_false] at hkind
    rcases hkind with rfl | rfl | rfl | rfl <;> cases h

private theorem isClean_of_wellFormed {x : Lexeme} (h : x.WellFormed) (hreturn : '\r' ∉ x.text)
    (p : Position) : ∀ t ∈ x.tokens p, t.IsClean := by
  have hfeed {t : Text} (ht : ∀ c ∈ t, Text.isBreak c = false) : '\n' ∉ t := by
    intro hmem
    simpa [Text.isBreak] using ht '\n' hmem
  have hstart : IsClean ⟨.preprocessorStart, "#", p⟩ := ⟨by simp, by simp⟩
  cases h with
  | breaks => simp [Lexeme.tokens]
  | inclusion _ hpath =>
    refine List.forall_mem_cons.2 ⟨hstart, List.forall_mem_singleton.2 ⟨?_, fun _ => ?_⟩⟩
    · simp [Lexeme.text] at hreturn
      tauto
    · exact hfeed fun c hc => Lexeme.isBreak_of_holds (hpath c hc)
  | directive =>
    refine List.forall_mem_cons.2 ⟨hstart, List.forall_mem_singleton.2 ⟨?_, by simp [lineKinds]⟩⟩
    simpa [Lexeme.text] using hreturn
  | blockComment =>
    refine List.forall_mem_singleton.2 ⟨?_, by simp [lineKinds]⟩
    simpa [Lexeme.text] using hreturn
  | string =>
    refine List.forall_mem_singleton.2 ⟨?_, by simp [lineKinds]⟩
    simp [Lexeme.text] at hreturn
    tauto
  | plain _ _ hline => exact List.forall_mem_singleton.2 ⟨hreturn, fun _ => hfeed hline⟩

private theorem isClean_of_lexemes {xs : List (Position × Lexeme)} (h : AllClean xs) (i : Indentation)
    (final : Position) : ∀ t ∈ ofLexemes i final xs, t.IsClean := by
  induction xs generalizing i with
  | nil =>
    refine List.forall_mem_append.2 ⟨?_, List.forall_mem_singleton.2 ⟨by simp [eos], by simp [eos, lineKinds]⟩⟩
    intro t ht
    obtain ⟨_, _, rfl⟩ := List.mem_map.1 ht
    exact isClean_token rfl final
  | cons y xs ih =>
    obtain ⟨⟨hwell, hreturn⟩, hxs⟩ := List.forall_mem_cons.1 h
    obtain ⟨p, x⟩ := y
    have ih (i : Indentation) := ih hxs i
    have hx := isClean_of_wellFormed hwell hreturn p
    cases x with
    | breaks run =>
      have hlayout := (layout_of_run i run xs.isEmpty).2
      rw [ofLexemes_breaks]
      exact List.forall_mem_append.2
        ⟨List.forall_mem_map.2 fun kind hkind => isClean_token (hlayout kind hkind) p, ih _⟩
    | _ => exact List.forall_mem_append.2 ⟨hx, ih i⟩

private theorem allClean_of_cut {source : Text} (h : '\r' ∉ source) {p : Position}
    {xs : List (Position × Lexeme)} (hcut : Lexeme.cut p true (body source) = .ok xs) : AllClean xs := by
  intro y hy
  obtain ⟨hwell, hsub⟩ := Lexeme.wellFormed_of_cut hcut y hy
  refine ⟨hwell, fun hmem => h (Text.dropMark_subset source ?_)⟩
  exact (List.dropWhile_suffix _).subset (hsub hmem)

/-- A source has the same tokens where its lines end in two characters, and the same faults. -/
theorem stream_withReturns {source : Text} (h : '\r' ∉ source) :
    stream source.withReturns = (stream source).map (List.map withReturns) := by
  have hmark : '\r' ∉ Text.dropMark source := fun hmem => h (Text.dropMark_subset source hmem)
  have hbodyMem : '\r' ∉ body source := fun hmem => hmark ((List.dropWhile_suffix _).subset hmem)
  have hblank : ∀ k, Text.isBreak k = true → Text.isBlank k = false :=
    Text.forall_isBreak.2 ⟨rfl, rfl⟩
  have hmargin : margin source.withReturns = margin source := by
    unfold margin
    rw [Text.dropMark_withReturns, Text.takeWhile_withReturns hblank hmark]
  have hbody : body source.withReturns = Text.withReturns (body source) := by
    unfold body
    rw [Text.dropMark_withReturns, Text.dropWhile_withReturns hblank]
  rw [stream_eq, stream_eq, hmargin, hbody, Lexeme.cut_withReturns hbodyMem,
    Text.dropMark_withReturns, Position.advance_withReturns]
  cases hcut : Lexeme.cut (Position.start.advance (margin source)) true (body source) with
  | error fault => rfl
  | ok xs => exact congrArg Except.ok (ofLexemes_withReturns (allClean_of_cut h hcut) _ _)

theorem isClean_of_stream {source : Text} (h : '\r' ∉ source) {tokens : List Token}
    (hstream : stream source = .ok tokens) : ∀ t ∈ tokens, t.IsClean := by
  obtain ⟨xs, hcut, rfl⟩ := exists_cut_of_stream hstream
  exact isClean_of_lexemes (allClean_of_cut h hcut) _ _

end Token
end SqfLayout
