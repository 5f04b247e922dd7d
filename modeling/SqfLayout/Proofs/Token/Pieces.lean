import SqfLayout.Proofs.Indentation
import SqfLayout.Proofs.Lexeme.Standing
import SqfLayout.Proofs.Token.Scanning

/-! A source is cut into pieces, and each piece gives tokens of its own: nothing of the source is lost
or repeated on the way to its tokens. -/
namespace SqfLayout

namespace Lexeme

theorem wellFormed_of_cut {t : Text} {p : Position} {lineStart : Bool}
    {xs : List (Position × Lexeme)} (h : cut p lineStart t = .ok xs) :
    ∀ y ∈ xs, y.2.WellFormed ∧ y.2.text ⊆ t := by
  fun_induction cut p lineStart t generalizing xs with
  | case1 =>
    cases h
    simp
  | case2 => cases h
  | case3 => cases h
  | case4 p lineStart c rest x hread more hcut ih =>
    cases h
    refine List.forall_mem_cons.2 ⟨⟨read_wellFormed hread, (read_isPrefix hread).1.subset⟩, ?_⟩
    intro y hy
    obtain ⟨hwell, hsub⟩ := ih hcut y hy
    exact ⟨hwell, fun d hd => (List.drop_suffix _ _).subset (hsub hd)⟩

end Lexeme

namespace Token
open Lexeme (isRun Doubled quotes)
open Text (Lacks)

/-- The text that tokens stand for: one token for a lexeme, or for a part of it, and a stretch of
layout for a run of line breaks. -/
inductive Spells : List Token → Text → Prop
  | start {t : Token} (ht : t.kind = .preprocessorStart) : Spells [t] ['#']
  | inclusion {t : Token} {gap : Text} {style : PathStyle} (ht : t.kind = .preprocessorInclude)
      (hgap : ∀ c ∈ gap, Text.isBlank c = true) (hpath : ∀ c ∈ t.value, style.holds c = true) :
      Spells [t] ("include" ++ gap ++ style.opening :: t.value ++ [style.closing])
  | directive {t : Token} (ht : t.kind = .preprocessorDirective) : Spells [t] t.value
  | blockComment {t : Token} (ht : t.kind = .blockComment) (hbody : Lacks '*' '/' t.value) :
      Spells [t] ("/*" ++ t.value ++ "*/")
  | string {t : Token} {quote : Char} (ht : t.kind = .string) (hquote : quote ∈ quotes)
      (hbody : Doubled quote t.value) : Spells [t] (quote :: t.value ++ [quote])
  | verbatim {t : Token} (ht : t.kind.isVerbatim = true) (hne : t.value ≠ []) : Spells [t] t.value
  | layout {group : List Token} {run : Text} (hne : group ≠ [])
      (hgroup : ∀ t ∈ group, t.kind.isLayout = true) (hrun : ∀ c ∈ run, isRun c = true)
      (hbreak : ∃ c ∈ run, Text.isBreak c = true) : Spells group run

/-- A piece of source with its tokens. -/
structure Piece where
  tokens : List Token
  text : Text

/-- A piece that is a run of line breaks. -/
def Piece.IsLayout (x : Piece) : Prop := ∀ t ∈ x.tokens, t.kind.isLayout = true

def tokensOf (xs : List Piece) : List Token := xs.flatMap Piece.tokens

def textOf (xs : List Piece) : Text := xs.flatMap Piece.text

/-- The kinds of token that stand behind the `#` of a directive. -/
def Kind.isDirective (kind : Kind) : Prop := kind = .preprocessorInclude ∨ kind = .preprocessorDirective

/-- Pieces one behind the other, of which the first stands behind the text `before`. Each token knows
its place; nothing goes on with a run of line breaks, and a directive goes on with its `#`. -/
inductive Follow : Text → Text → List Piece → Prop
  | nil {before : Text} : Follow before [] []
  | cons {before whole text : Text} {x : Piece} {xs : List Piece} (hx : Spells x.tokens x.text)
      (hplace : ∀ t ∈ x.tokens, t.position = Position.start.advance before)
      (hapart : x.IsLayout → ∀ c ∈ text.head?, isRun c = false)
      (hhash : (∃ t ∈ x.tokens, t.kind.isDirective) → before.getLast? = some '#')
      (htext : whole = x.text ++ text) (hxs : Follow (before ++ x.text) text xs) :
      Follow before whole (x :: xs)

/-- Pieces whose runs of line breaks give the tokens that the levels `i`, open in front of them, ask
for. The levels `j` are left open. -/
inductive Runs : Indentation → List Piece → Indentation → Prop
  | nil {i : Indentation} : Runs i [] i
  | tokens {i j : Indentation} {x : Piece} {xs : List Piece} (hne : x.tokens ≠ [])
      (hx : ∀ t ∈ x.tokens, t.kind.isLayout = false ∧ t.kind ≠ .eos) (hxs : Runs i xs j) :
      Runs i (x :: xs) j
  | run {i j : Indentation} {x : Piece} {xs : List Piece}
      (hx : x.tokens.map Token.kind =
        Indentation.blankKinds x.text ++ (i.afterRun x.text xs.isEmpty).2)
      (hxs : Runs (i.afterRun x.text xs.isEmpty).1 xs j) : Runs i (x :: xs) j

/-- Pieces of a source, with runs of line breaks as long as can be. -/
structure IsCut (xs : List Piece) : Prop where
  spells : ∀ x ∈ xs, Spells x.tokens x.text
  apart : xs.IsChain fun x y => ¬ (x.IsLayout ∧ y.IsLayout)

/-- The blanks that a source starts with, which give no token. -/
def margin (source : Text) : Text := (Text.dropMark source).takeWhile Text.isBlank

section
variable {before text : Text} {p : Position} {xs : List Piece}

theorem Follow.textOf_eq (h : Follow before text xs) : textOf xs = text := by
  induction h with
  | nil => rfl
  | cons _ _ _ _ htext _ ih =>
    subst htext
    exact congrArg (_ ++ ·) ih

theorem Follow.spells (h : Follow before text xs) : ∀ x ∈ xs, Spells x.tokens x.text := by
  induction h with
  | nil => simp
  | cons hx _ _ _ _ _ ih => exact List.forall_mem_cons.2 ⟨hx, ih⟩

private theorem Spells.ne_nil {group : List Token} {piece : Text} (h : Spells group piece) : group ≠ [] := by
  cases h with
  | layout hne => exact hne
  | _ => simp

private theorem Spells.run_of_layout {group : List Token} {run : Text} (h : Spells group run)
    (hgroup : ∀ t ∈ group, t.kind.isLayout = true) :
    ∃ c rest, run = c :: rest ∧ isRun c = true := by
  have hsingle {t : Token} (ht : t.kind.isLayout = false) (hgroup : ∀ u ∈ [t], u.kind.isLayout = true) :
      False := by
    simp [ht] at hgroup
  cases h with
  | start ht => exact (hsingle (by rw [ht]; rfl) hgroup).elim
  | inclusion ht => exact (hsingle (by rw [ht]; rfl) hgroup).elim
  | directive ht => exact (hsingle (by rw [ht]; rfl) hgroup).elim
  | blockComment ht => exact (hsingle (by rw [ht]; rfl) hgroup).elim
  | string ht => exact (hsingle (by rw [ht]; rfl) hgroup).elim
  | @verbatim t ht =>
    refine (hsingle ?_ hgroup).elim
    revert ht
    cases t.kind <;> simp [Kind.isVerbatim, Kind.isLayout]
  | layout _ _ hrun hbreak =>
    obtain ⟨d, hd, -⟩ := hbreak
    obtain ⟨c, rest, rfl⟩ := List.exists_cons_of_ne_nil (List.ne_nil_of_mem hd)
    exact ⟨c, rest, rfl, hrun c (by simp)⟩

theorem Piece.not_isLayout {x : Piece} (hne : x.tokens ≠ [])
    (hx : ∀ t ∈ x.tokens, t.kind.isLayout = false ∧ t.kind ≠ .eos) : ¬ x.IsLayout := by
  intro hlayout
  obtain ⟨t, ht⟩ := List.exists_mem_of_ne_nil _ hne
  exact Bool.false_ne_true ((hx t ht).1.symm.trans (hlayout t ht))

private theorem Follow.apart (h : Follow before text xs) : xs.IsChain fun x y => ¬ (x.IsLayout ∧ y.IsLayout) := by
  induction h with
  | nil => exact .nil
  | @cons before whole text x xs hx _ hapart _ _ hxs ih =>
    cases hxs with
    | nil => exact .singleton x
    | cons hy _ _ _ htext hys =>
      refine .cons_cons ?_ ih
      rintro ⟨hlayout, hlayout'⟩
      obtain ⟨c, rest, hrun, hc⟩ := hy.run_of_layout hlayout'
      have := hapart hlayout c (by rw [htext, hrun]; rfl)
      simp [hc] at this

theorem Follow.isCut (h : Follow before text xs) : IsCut xs := ⟨h.spells, h.apart⟩

private theorem Follow.cons_token {t : Token} {piece : Text} (hpiece : Spells [t] piece)
    (hkind : t.kind.isLayout = false) (hplace : t.position = Position.start.advance before)
    (hhash : t.kind.isDirective → before.getLast? = some '#')
    (hxs : Follow (before ++ piece) text xs) :
    Follow before (piece ++ text) (⟨[t], piece⟩ :: xs) := by
  refine .cons hpiece (by simpa using hplace) ?_ (by simpa using hhash) rfl hxs
  intro hlayout
  have := hlayout t (by simp)
  simp [hkind] at this

private theorem Follow.cons_directive {t u : Token} {piece : Text}
    (ht : t.kind = .preprocessorStart) (htplace : t.position = Position.start.advance before)
    (hpiece : Spells [u] piece) (hu : u.kind.isLayout = false) (huplace : u.position = t.position.step '#')
    (hxs : Follow (before ++ '#' :: piece) text xs) :
    Follow before ('#' :: piece ++ text) (⟨[t], ['#']⟩ :: ⟨[u], piece⟩ :: xs) := by
  have hplace : u.position = Position.start.advance (before ++ ['#']) := by
    rw [huplace, htplace, Position.advance_append]
    rfl
  refine .cons_token (.start ht) (by rw [ht]; rfl) htplace (by simp [ht, Kind.isDirective]) ?_
  exact .cons_token hpiece hu hplace (by simp) (by simpa using hxs)

private theorem Kind.of_isVerbatim {kind : Kind} (h : kind.isVerbatim = true) :
    kind.isLayout = false ∧ ¬ kind.isDirective := by
  cases kind <;> simp [isVerbatim, isLayout, isDirective] at *

/-- A lexeme that breaks no line, in front of other pieces. A directive makes two. -/
private theorem exists_pieces_of_lexeme {x : Lexeme} (hx : x.WellFormed)
    (hbreaks : x.isBreaks = false) (hxs : Follow (before ++ x.text) text xs) :
    ∃ ys, tokensOf ys = x.tokens (Position.start.advance before) ∧
      Follow before (x.text ++ text) (ys ++ xs) := by
  cases hx with
  | breaks => cases hbreaks
  | @inclusion gap style path hgap hpath =>
    have htext : (Lexeme.inclusion gap style path).text =
        '#' :: ("include" ++ gap ++ style.opening :: path ++ [style.closing]) := by
      simp [Lexeme.text]
    rw [htext] at hxs ⊢
    exact ⟨[⟨[_], ['#']⟩, ⟨[_], _⟩], rfl,
      .cons_directive rfl rfl (.inclusion rfl hgap hpath) rfl rfl hxs⟩
  | directive =>
    exact ⟨[⟨[_], ['#']⟩, ⟨[_], _⟩], rfl, .cons_directive rfl rfl (.directive rfl) rfl rfl hxs⟩
  | blockComment hbody =>
    exact ⟨[⟨[_], _⟩], rfl, .cons_token (.blockComment rfl hbody) rfl rfl (by simp [Kind.isDirective]) hxs⟩
  | string hquote hbody =>
    exact ⟨[⟨[_], _⟩], rfl, .cons_token (.string rfl hquote hbody) rfl rfl (by simp [Kind.isDirective]) hxs⟩
  | plain hkind hne _ =>
    obtain ⟨hlayout, hdirective⟩ := Kind.of_isVerbatim hkind
    exact ⟨[⟨[_], _⟩], rfl,
      .cons_token (.verbatim hkind hne) hlayout rfl (fun h => absurd h hdirective) hxs⟩

theorem eq_breaks_of_read {lineStart : Bool} {c : Char} {rest more : Text} {x : Lexeme}
    (h : Lexeme.read lineStart c rest = .ok x) (hx : x.isBreaks = true)
    (hwhole : c :: rest = x.text ++ more) :
    ∃ run, x = .breaks run ∧ (∀ d ∈ run, isRun d = true) ∧ (∃ d ∈ run, Text.isBreak d = true) ∧
      ∀ d ∈ more.head?, isRun d = false := by
  obtain ⟨more', hwhole', hstands⟩ := Lexeme.read_eq_ok_iff.1 h
  obtain rfl : more' = more := (List.append_right_inj x.text).1 (hwhole'.symm.trans hwhole)
  cases hstands with
  | @breaks d run _ hc hrun hmore =>
    have hall : ∀ e ∈ d :: run, isRun e = true := List.forall_mem_cons.2 ⟨by simp [isRun, hc], hrun⟩
    exact ⟨_, rfl, hall, ⟨d, List.mem_cons_self, hc⟩, hmore⟩
  | _ => cases hx

private theorem Follow.cons_breaks {lineStart : Bool} {c : Char} {rest : Text} {x : Lexeme}
    (h : Lexeme.read lineStart c rest = .ok x) (hx : x.isBreaks = true)
    (hwhole : c :: rest = x.text ++ text) {kinds : List Kind} (hne : kinds ≠ [])
    (hkinds : ∀ kind ∈ kinds, kind.isLayout = true)
    (hxs : Follow (before ++ x.text) text xs) : Follow before (x.text ++ text)
      (⟨kinds.map (Indentation.token (Position.start.advance before)), x.text⟩ :: xs) := by
  obtain ⟨run, rfl, hrun, hbreak, hend⟩ := eq_breaks_of_read h hx hwhole
  have hspells : Spells (kinds.map (Indentation.token (Position.start.advance before))) run :=
    .layout (by simpa using hne) (List.forall_mem_map.2 hkinds) hrun hbreak
  refine .cons hspells (List.forall_mem_map.2 fun _ _ => rfl) (fun _ => hend) ?_ rfl hxs
  rintro ⟨t, ht, hdirective⟩
  obtain ⟨kind, hkind, rfl⟩ := List.mem_map.1 ht
  have hlayout := hkinds kind hkind
  rcases hdirective with h | h <;> simp [show kind = _ from h, Kind.isLayout] at hlayout

theorem ofLexemes_breaks (i : Indentation) (run : Text) (others : List (Position × Lexeme))
    (final p : Position) : ofLexemes i final ((p, .breaks run) :: others) =
      (Indentation.blankKinds run ++ (i.afterRun run others.isEmpty).2).map (Indentation.token p) ++
        ofLexemes (i.afterRun run others.isEmpty).1 final others := by
  rw [List.map_append, ← Indentation.blanks_eq]
  rfl

theorem layout_of_run (i : Indentation) (run : Text) (last : Bool) :
    Indentation.blankKinds run ++ (i.afterRun run last).2 ≠ [] ∧
      ∀ kind ∈ Indentation.blankKinds run ++ (i.afterRun run last).2, kind.isLayout = true := by
  have hturn := i.turn_afterRun run last
  have hblank : ∀ kind ∈ Indentation.blankKinds run, kind.isLayout = true := by
    unfold Indentation.blankKinds
    split
    · exact List.forall_mem_singleton.2 rfl
    · simp
  exact ⟨by simp [hturn.ne_nil], List.forall_mem_append.2 ⟨hblank, hturn.isLayout⟩⟩

theorem isLayout_of_lexeme {x : Lexeme} (hx : x.WellFormed) (p : Position) :
    ∀ t ∈ x.tokens p, t.kind.isLayout = false ∧ t.kind ≠ .eos := by
  cases hx with
  | plain hkind =>
    refine List.forall_mem_singleton.2 ⟨(Kind.of_isVerbatim hkind).1, ?_⟩
    rintro rfl
    cases hkind
  | _ => simp [Lexeme.tokens, Kind.isLayout]

theorem tokens_ne_nil {x : Lexeme} (hx : x.isBreaks = false) (p : Position) : x.tokens p ≠ [] := by
  cases x with
  | breaks => cases hx
  | _ => simp [Lexeme.tokens]

private theorem Runs.append_tokens {i j : Indentation} {front xs : List Piece} (hne : ∀ x ∈ front, x.tokens ≠ [])
    (hfront : ∀ t ∈ tokensOf front, t.kind.isLayout = false ∧ t.kind ≠ .eos) (hxs : Runs i xs j) :
    Runs i (front ++ xs) j := by
  induction front with
  | nil => exact hxs
  | cons x front ih =>
    obtain ⟨hx, hfront⟩ := List.forall_mem_append.1 hfront
    obtain ⟨hnex, hne⟩ := List.forall_mem_cons.1 hne
    exact .tokens hnex hx (ih hne hfront)

/-- A text that is cut to its end is pieces one behind the other; levels still open are closed behind
them. -/
theorem exists_pieces_of_cut {lineStart : Bool} {ys : List (Position × Lexeme)}
    (h : Lexeme.cut (Position.start.advance before) lineStart text = .ok ys) (i : Indentation)
    (final : Position) :
    ∃ xs j, ofLexemes i final ys = tokensOf xs ++ j.finish final ∧ Runs i xs j ∧
      xs.isEmpty = ys.isEmpty ∧ Follow before text xs := by
  generalize hp : Position.start.advance before = p at h
  fun_induction Lexeme.cut p lineStart text generalizing before i ys with
  | case1 =>
    cases h
    exact ⟨[], i, rfl, .nil, rfl, .nil⟩
  | case2 => cases h
  | case3 => cases h
  | case4 p lineStart c rest x hread more hcut ih =>
    cases h
    subst hp
    have hwhole := eq_append_drop_of_read hread
    have ih (j : Indentation) := ih j (Position.advance_append _ before x.text) hcut
    cases hx : x.isBreaks with
    | true =>
      obtain ⟨run, rfl, -⟩ := eq_breaks_of_read hread hx hwhole
      obtain ⟨xs, j, hxs, hruns, hempty, hfollow⟩ := ih (i.afterRun run more.isEmpty).1
      obtain ⟨hne, hkinds⟩ := layout_of_run i run more.isEmpty
      have hall := hfollow.cons_breaks hread hx hwhole hne hkinds
      rw [← hwhole] at hall
      refine ⟨_, j, ?_, ?_, rfl, hall⟩
      · rw [ofLexemes_breaks, hxs]
        simp [tokensOf]
      · refine .run ?_ ?_
        · simp [hempty, Lexeme.text, Indentation.token, Function.comp_def]
        · simpa [hempty, Lexeme.text] using hruns
    | false =>
      have hwell := Lexeme.read_wellFormed hread
      obtain ⟨xs, j, hxs, hruns, hempty, hfollow⟩ := ih i
      obtain ⟨first, hfirst, hall⟩ := exists_pieces_of_lexeme hwell hx hfollow
      refine ⟨first ++ xs, j, ?_, ?_, ?_, hwhole ▸ hall⟩
      · rw [ofLexemes_of_isBreaks_eq_false hx, hxs, ← hfirst]
        simp [tokensOf]
      · refine hruns.append_tokens (fun y hy => ?_) (hfirst ▸ isLayout_of_lexeme hwell _)
        exact (hall.spells y (List.mem_append_left xs hy)).ne_nil
      · have hne : first ≠ [] := by
          rintro rfl
          exact tokens_ne_nil hx _ hfirst.symm
        simp [hne]

private theorem Spells.kind_of_nil {group : List Token} {piece : Text} (h : Spells group piece)
    (hpiece : piece = []) : ∀ t ∈ group, t.kind = .preprocessorDirective := by
  cases h with
  | directive ht => simpa using ht
  | verbatim _ hne => exact absurd hpiece hne
  | layout _ _ _ hbreak =>
    obtain ⟨c, hc, _⟩ := hbreak
    rw [hpiece] at hc
    cases hc
  | start | inclusion | blockComment | string => simp at hpiece

end

/-- What stands behind the margin of a source. -/
def body (source : Text) : Text := (Text.dropMark source).dropWhile Text.isBlank

theorem margin_append_body (source : Text) : margin source ++ body source = Text.dropMark source :=
  List.takeWhile_append_dropWhile

theorem stream_eq (source : Text) : stream source =
    (Lexeme.cut (Position.start.advance (margin source)) true (body source)).map
      (ofLexemes ⟨(margin source).length, []⟩ (Position.start.advance (Text.dropMark source))) := by
  rw [← margin_append_body, Position.advance_append]
  exact stream_eq_scan source

theorem exists_cut_of_stream {source : Text} {tokens : List Token} (h : stream source = .ok tokens) :
    ∃ ys, Lexeme.cut (Position.start.advance (margin source)) true (body source) = .ok ys ∧
      tokens = ofLexemes ⟨(margin source).length, []⟩ (Position.start.advance (Text.dropMark source))
        ys := by
  rw [stream_eq] at h
  obtain ⟨ys, hcut, rfl⟩ := exists_of_map_ok h
  exact ⟨ys, hcut, rfl⟩

theorem exists_runs_of_stream {source : Text} {tokens : List Token} (h : stream source = .ok tokens) :
    ∃ xs j, tokens = tokensOf xs ++ j.finish (Position.start.advance (Text.dropMark source)) ∧
      Runs ⟨(margin source).length, []⟩ xs j ∧ Follow (margin source) (body source) xs := by
  obtain ⟨ys, hcut, rfl⟩ := exists_cut_of_stream h
  obtain ⟨xs, j, htokens, hruns, -, hfollow⟩ := exists_pieces_of_cut hcut _ _
  exact ⟨xs, j, htokens, hruns, hfollow⟩

theorem exists_pieces_of_stream {source : Text} {tokens : List Token} (h : stream source = .ok tokens) :
    ∃ xs closing, tokens = tokensOf xs ++ closing ++
        [Token.eos (Position.start.advance (Text.dropMark source))] ∧
      (∀ t ∈ closing,
        t = Indentation.token (Position.start.advance (Text.dropMark source)) .outdent) ∧
      Follow (margin source) (body source) xs := by
  obtain ⟨xs, j, htokens, -, hfollow⟩ := exists_runs_of_stream h
  let final := Position.start.advance (Text.dropMark source)
  refine ⟨xs, j.opened.map fun _ => Indentation.token final .outdent, ?_, by simp [final], hfollow⟩
  rw [htokens, List.append_assoc]
  rfl

theorem ends_of_stream {source : Text} {tokens : List Token} (h : stream source = .ok tokens) :
    ∃ t ∈ tokens.getLast?, t.kind = .eos := by
  obtain ⟨xs, closing, rfl, -⟩ := exists_pieces_of_stream h
  exact ⟨_, List.getLast?_concat, rfl⟩

/-- A source is the concatenation of what its tokens stand for. Reading it always comes to an end, and
only a directive may stand for nothing. -/
theorem stream_isCut (source : Text) :
    (∃ fault, stream source = .error fault) ∨
    ∃ xs closing last, stream source = .ok (tokensOf xs ++ closing ++ [last]) ∧
      Text.dropMark source = margin source ++ textOf xs ∧ IsCut xs ∧
      (∀ t ∈ closing, t.kind = .outdent) ∧ last.kind = .eos ∧
      ∀ x ∈ xs, x.text = [] → ∀ t ∈ x.tokens, t.kind = .preprocessorDirective := by
  cases hstream : stream source with
  | error fault => exact .inl ⟨fault, rfl⟩
  | ok tokens =>
    obtain ⟨xs, closing, htokens, hclosing, hfollow⟩ := exists_pieces_of_stream hstream
    refine .inr ⟨xs, closing, _, congrArg Except.ok htokens, ?_, hfollow.isCut, ?_, rfl, ?_⟩
    · rw [hfollow.textOf_eq, margin_append_body]
    · intro t ht
      rw [hclosing t ht]
      rfl
    · exact fun x hx hnil => (hfollow.spells x hx).kind_of_nil hnil

end Token
end SqfLayout
