import SqfLayout.Proofs.Expression.Marks
import SqfLayout.Proofs.Token.Redrawn

/-! A line that is broken behind a mark of an array. What stands in front of the break gives the same
tokens; what stands behind it gives the same words, since the source is cut there as before. -/
namespace SqfLayout

namespace Token
open Expression (arrayMarks Filler Spaces)
open Indentation (width token)
open Lexeme (isRun bars)

/-- A token stands where a line ends, and the next line of content is indented by `n`. At the end of the
source no line follows, and `n` is zero. -/
def LineAt (source : Text) (t : Token) (n : Nat) : Prop :=
  ∃ a m, Text.dropMark source = a ++ m ∧ t.position = .behind a ∧ width (m.takeWhile isRun) = n

section
variable {source : Text} {t : Token} {n m : Nat}

theorem LineAt.unique (h : LineAt source t n) (h' : LineAt source t m) : n = m := by
  obtain ⟨a, text, hsource, hplace, rfl⟩ := h
  obtain ⟨a', text', hsource', hplace', rfl⟩ := h'
  have hsame : Position.start.advance a = Position.start.advance a' := by
    rw [Position.start_advance, Position.start_advance, ← hplace, ← hplace']
  obtain rfl := Position.eq_of_advance_eq ⟨text, hsource.symm⟩ ⟨text', hsource'.symm⟩ hsame
  rw [(List.append_right_inj a).1 (hsource.symm.trans hsource')]

private theorem lineAt_of_run {ys front others : List (Position × Lexeme)} {run : Text}
    (hcut : Lexeme.cut (Position.start.advance (margin source)) true (body source) = .ok ys)
    (hys : ys = front ++ (t.position, .breaks run) :: others) : LineAt source t (width run) := by
  subst hys
  obtain ⟨c, rest, more, hsource, hplace, hread, hwhole, -⟩ := exists_read_at hcut
  obtain ⟨_, ⟨⟩, hrun, -, hend⟩ := eq_breaks_of_read hread rfl hwhole
  refine ⟨margin source ++ lexedText front, run ++ more, ?_, hplace, ?_⟩
  · rw [hsource, hwhole]
    rfl
  · rw [List.takeWhile_append_of_pos hrun]
    cases more with
    | nil => simp
    | cons d more => simp [hend d rfl]

private theorem lineAt_final (ht : t.position = Position.start.advance (Text.dropMark source)) : LineAt source t 0 :=
  ⟨Text.dropMark source, [], (List.append_nil _).symm, by rw [ht, Position.start_advance], rfl⟩

end

theorem exists_cut_elsewhere {p : Position} {lineStart : Bool} {text : Text} {ys : List (Position × Lexeme)}
    (h : Lexeme.cut p lineStart text = .ok ys) (p' : Position) :
    ∃ ys', Lexeme.cut p' lineStart text = .ok ys' ∧ ys'.map Prod.snd = ys.map Prod.snd := by
  induction ys generalizing p p' lineStart text with
  | nil =>
    cases text with
    | nil => exact ⟨[], by rw [Lexeme.cut], rfl⟩
    | cons c rest => exact absurd h cut_cons_ne_nil
  | cons y ys ih =>
    obtain ⟨c, rest, more, rfl, htext, hread, -, hcut⟩ := exists_read_of_cut h
    obtain ⟨ys', hys', hsame⟩ := ih hcut (p'.advance y.2.text)
    refine ⟨(p', y.2) :: ys', ?_, congrArg (y.2 :: ·) hsame⟩
    rw [cut_of_read hread, htext, List.drop_left, hys']
    rfl

section
variable {i : Indentation} {final : Position} {ys : List (Position × Lexeme)} {front behind : List Token}
  {mark : Token}

/-- The marks that arrays are written with. -/
def listMarks : List Kind := .rightBracket :: arrayMarks

private theorem listMarks_cases {kind : Kind} (h : kind ∈ listMarks) :
    kind = .rightBracket ∨ kind = .leftBracket ∨ kind = .comma := by
  simpa [listMarks, arrayMarks] using h

private theorem base_behind_le (s : Stage) (ys : List (Position × Lexeme)) :
    (s.behind ys).levels.base ≤ s.levels.base := by
  induction ys generalizing s with
  | nil => exact Nat.le_refl _
  | cons y ys ih =>
    obtain ⟨q, x⟩ := y
    refine Nat.le_trans (ih (s.after x)) ?_
    cases x with
    | breaks run => exact (s.levels.enters (width run)).base_le
    | _ => exact Nat.le_refl _

theorem nested_behind {s : Stage} (h : s.levels.Nested) (ys : List (Position × Lexeme)) :
    (s.behind ys).levels.Nested := by
  induction ys generalizing s with
  | nil => exact h
  | cons y ys ih =>
    obtain ⟨q, x⟩ := y
    refine @ih (s.after x) ?_
    cases x with
    | breaks run => exact (s.levels.enters (width run)).nested h
    | _ => exact h

theorem isLayout_of_mark {kind : Kind} (h : kind ∈ listMarks) : kind.isLayout = false := by
  obtain rfl | rfl | rfl := listMarks_cases h <;> rfl

theorem eq_plain_of_mark {x : Lexeme} {q : Position} {z : List Token} (hmark : mark.kind ∈ listMarks)
    (hbreaks : x.isBreaks = false) (h : x.tokens q = front ++ mark :: z) :
    x = .plain mark.kind mark.value ∧ q = mark.position ∧ front = [] ∧ z = [] := by
  have hmem : mark ∈ x.tokens q := h ▸ by simp
  cases x with
  | breaks => cases hbreaks
  | plain kind text =>
    obtain rfl : mark = ⟨kind, text, q⟩ := List.mem_singleton.1 hmem
    obtain ⟨hfront, hz⟩ | ⟨-, hz⟩ := List.append_eq_singleton_iff.1 h.symm
    · exact ⟨rfl, rfl, hfront, (List.cons.inj hz).2⟩
    · cases hz
  | _ =>
    simp only [Lexeme.tokens, List.mem_cons, List.not_mem_nil, or_false] at hmem
    revert hmark
    rcases hmem with rfl | rfl <;> simp [listMarks, arrayMarks]

private theorem mem_enter_of_newline {line : Token} {q : Position} {run : Text} (hkind : line.kind = .newline)
    (h : line ∈ (Indentation.blankKinds run ++ (i.afterRun run false).2).map (token q)) :
    line.position = q ∧ .newline ∈ (i.enter (width run)).2 := by
  obtain ⟨kind, hmem, rfl⟩ := List.mem_map.1 h
  obtain rfl : kind = .newline := hkind
  refine ⟨rfl, ?_⟩
  obtain hblank | hblank := Indentation.blankKinds_cases run <;> rw [hblank] at hmem
  · exact hmem
  · exact (List.mem_cons.1 hmem).resolve_left (by simp)

/-- A mark is a lexeme of its own, and the base at the mark is no deeper than a line in front of it that
stayed on its level. -/
private theorem exists_lexeme_of_mark (hi : i.Nested) (hmark : mark.kind ∈ listMarks)
    (hwell : ∀ y ∈ ys, y.2.WellFormed) (h : ofLexemes i final ys = front ++ mark :: behind) (lineStart : Bool) :
    ∃ others others', ys = others ++ (mark.position, .plain mark.kind mark.value) :: others' ∧
      behind = ofLexemes ((⟨i, lineStart⟩ : Stage).behind others).levels final others' ∧
      ∀ line ∈ front, line.kind = .newline → ∃ before run after, others = before ++ (line.position, .breaks run) :: after ∧
        ((⟨i, lineStart⟩ : Stage).behind others).levels.base ≤ width run := by
  have hlayout := isLayout_of_mark hmark
  induction ys generalizing i front lineStart with
  | nil =>
    have hmem : mark ∈ i.finish final := by
      rw [show i.finish final = front ++ mark :: behind from h]
      simp
    obtain hmem | hmem := List.mem_append.1 hmem
    · obtain ⟨_, -, rfl⟩ := List.mem_map.1 hmem
      cases hlayout
    · rw [List.mem_singleton.1 hmem] at hmark
      simp [listMarks, arrayMarks, eos] at hmark
  | cons y ys ih =>
    obtain ⟨q, x⟩ := y
    obtain ⟨hx, hwell'⟩ := List.forall_mem_cons.1 hwell
    cases hbreaks : x.isBreaks with
    | false =>
      rw [ofLexemes_of_isBreaks_eq_false hbreaks] at h
      obtain ⟨z, hz, hbehind⟩ | ⟨z, rfl, hz⟩ := exists_split h
      · obtain ⟨rfl, rfl, rfl, rfl⟩ := eq_plain_of_mark hmark hbreaks hz
        exact ⟨[], ys, rfl, hbehind, by simp⟩
      · obtain ⟨others, others', rfl, hbehind, hlines⟩ := ih hi hwell' hz false
        refine ⟨(q, x) :: others, others', rfl, ?_⟩
        rw [Stage.behind, List.foldl_cons, after_of_isBreaks_eq_false hbreaks]
        refine ⟨hbehind, fun line hline hkind => ?_⟩
        obtain hline | hline := List.mem_append.1 hline
        · have hword := (isLayout_of_lexeme hx q line hline).1
          simp [hkind, Kind.isLayout] at hword
        · obtain ⟨before, run, after, rfl, hbase⟩ := hlines line hline hkind
          exact ⟨(q, x) :: before, run, after, rfl, hbase⟩
    | true =>
      cases x with
      | breaks run =>
        rw [ofLexemes_breaks] at h
        obtain ⟨z, hz, -⟩ | ⟨z, rfl, hz⟩ := exists_split h
        · have hmem : mark ∈ front ++ mark :: z := by simp
          rw [← hz] at hmem
          obtain ⟨kind, hkind, rfl⟩ := List.mem_map.1 hmem
          rw [show (token q kind).kind = kind from rfl, (layout_of_run i run _).2 kind hkind] at hlayout
          cases hlayout
        · obtain ⟨others, others', rfl, hbehind, hlines⟩ :=
            ih (Indentation.nested_afterRun hi run ys.isEmpty) hwell' hz true
          have hmore : (others ++ (mark.position, Lexeme.plain mark.kind mark.value) :: others').isEmpty = false := by
            simp
          rw [hmore] at hbehind hlines ⊢
          refine ⟨(q, .breaks run) :: others, others', rfl, hbehind, fun line hline hkind => ?_⟩
          obtain hline | hline := List.mem_append.1 hline
          · obtain ⟨rfl, hturn⟩ := mem_enter_of_newline hkind hline
            have hbase := (i.enters (width run)).base_le_width hi hturn
            exact ⟨[], run, others, rfl, Nat.le_trans (base_behind_le _ others) hbase⟩
          · obtain ⟨before, run', after, rfl, hbase⟩ := hlines line hline hkind
            exact ⟨(q, .breaks run) :: before, run', after, rfl, hbase⟩
      | _ => cases hbreaks

theorem read_of_mark {lineStart : Bool} {c : Char} {rest value : Text} {kind : Kind} (hkind : kind ∈ listMarks)
    (h : Lexeme.read lineStart c rest = .ok (.plain kind value)) :
    value = [c] ∧ Lexeme.mark? c = some kind ∧ c ∈ bars ∧ Text.isBlank c = false ∧
      ∀ lineStart m, Lexeme.read lineStart c m = .ok (.plain kind [c]) := by
  generalize hx : Lexeme.plain kind value = x at h
  cases Lexeme.reads_of_read h with
  | directive _ hread =>
    obtain ⟨_, _, _, rfl⟩ | ⟨_, rfl⟩ := Lexeme.readDirective_cases hread <;> cases hx
  | @mark kind' hmark =>
    obtain ⟨rfl, rfl⟩ : kind = kind' ∧ value = [c] := by simpa using hx
    have hc : c = ']' ∨ c = '[' ∨ c = ',' := by
      unfold Lexeme.mark? at hmark
      obtain rfl | rfl | rfl := listMarks_cases hkind <;> grind
    refine ⟨rfl, hmark, ?_, ?_, fun lineStart m => Lexeme.read_mark hmark m⟩
    · obtain rfl | rfl | rfl := hc <;> decide
    · obtain rfl | rfl | rfl := hc <;> decide
  | breaks | space | blockComment | lineComment | string | number | command | operator =>
    cases hx <;> exact absurd hkind (by decide)

/-- A source as it is cut at a mark. The tokens in front of the mark and the mark itself do not depend on
what stands behind it. -/
structure CutAt (source : Text) (front : List Token) (mark : Token) (behind : List Token) (a : Text) (k : Char)
    (m : Text) (others others' : List (Position × Lexeme)) : Prop where
  source_eq : Text.dropMark source = a ++ k :: m
  place : mark.position = .behind a
  kind : Lexeme.mark? k = some mark.kind
  cut : Lexeme.cut (Position.start.advance (margin source)) true (body source) =
    .ok (others ++ (mark.position, .plain mark.kind mark.value) :: others')
  behind_eq : behind = ofLexemes ((opening source).behind others).levels
    (Position.start.advance (Text.dropMark source)) others'
  cut_rest : Lexeme.cut (Position.start.advance (a ++ [k])) false m = .ok others'
  base_le : ∀ line ∈ front, line.kind = .newline → ∀ n, LineAt source line n →
    ((opening source).behind others).levels.base ≤ n
  again : ∀ source' m', Text.dropMark source' = a ++ k :: m' → stream source' =
    (scan ((opening source).behind others).levels (Position.start.advance (a ++ [k])) false m').map
      (front ++ mark :: ·)

theorem exists_cutAt_of_stream {source : Text} (hstream : stream source = .ok (front ++ mark :: behind))
    (hmark : mark.kind ∈ listMarks) : ∃ a k m others others', CutAt source front mark behind a k m others others' := by
  obtain ⟨ys, hcut, htokens⟩ := exists_cut_of_stream hstream
  have hwell := fun y hy => (Lexeme.wellFormed_of_cut hcut y hy).1
  obtain ⟨others, others', rfl, hbehind, hlines⟩ :=
    exists_lexeme_of_mark (Indentation.nested_nil _) hmark hwell htokens.symm true
  obtain ⟨k, m, more, hsource, hplace, hread, hwhole, hothers⟩ := exists_read_at hcut
  obtain ⟨hvalue, hkind, hbar, hblank, hagain⟩ := read_of_mark hmark hread
  rw [hvalue] at hwhole hothers
  obtain rfl : m = more := (List.cons.inj hwhole).2
  obtain ⟨a, ha⟩ : ∃ a, margin source ++ lexedText others = a := ⟨_, rfl⟩
  rw [ha] at hsource hplace
  obtain ⟨ts, hts⟩ := exists_stream_of_cut hbar hblank hsource hcut ha
  have hlexeme : mark = ⟨mark.kind, [k], Position.start.advance a⟩ := by
    obtain ⟨kind, value, place⟩ := mark
    rw [Position.start_advance, ← hplace, ← hvalue]
  have hscan : ∀ m', scan ((opening source).behind others).levels (Position.start.advance a)
      ((opening source).behind others).lineStart (k :: m') =
      (scan ((opening source).behind others).levels (Position.start.advance (a ++ [k])) false m').map (mark :: ·) := by
    intro m'
    rw [scan_of_read (hagain _ m') rfl rfl, Position.advance_append, hlexeme]
    rfl
  have hcut' : Lexeme.cut (Position.start.advance (a ++ [k])) false m = .ok others' := by
    rwa [Position.advance_append, Position.start_advance, ← hplace]
  obtain rfl : ts = front := by
    have htokens := hts source m hsource
    rw [hscan, hstream] at htokens
    unfold scan at htokens
    rw [hcut', ← Position.advance_append, List.append_assoc, List.singleton_append, ← hsource] at htokens
    have hsame : front ++ mark :: behind = ts ++ mark :: behind := by
      conv => rhs; rw [hbehind]
      exact Except.ok.inj htokens
    exact ((List.append_left_inj _).1 hsame).symm
  refine ⟨a, k, m, others, others', hsource, hplace, hkind, hcut, hbehind, hcut', fun line hline hkind n hn => ?_,
    fun source' m' hsource' => ?_⟩
  · obtain ⟨before, run, after, rfl, hbase⟩ := hlines line hline hkind
    rw [hn.unique (lineAt_of_run hcut (by rw [List.append_assoc]; rfl))]
    exact hbase
  rw [hts source' m' hsource', hscan]
  cases scan ((opening source).behind others).levels (Position.start.advance (a ++ [k])) false m' <;> rfl

theorem exists_cutAt {source a m : Text} {k : Char} (hstream : stream source = .ok (front ++ mark :: behind))
    (hmark : mark.kind ∈ listMarks) (hplace : mark.position = .behind a)
    (hsource : Text.dropMark source = a ++ k :: m) :
    ∃ others others', CutAt source front mark behind a k m others others' := by
  obtain ⟨a', k', m', others, others', hcut⟩ := exists_cutAt_of_stream hstream hmark
  have hsame : Position.start.advance a' = Position.start.advance a := by
    rw [Position.start_advance, Position.start_advance, ← hplace, hcut.place]
  obtain rfl : a' = a := Position.eq_of_advance_eq ⟨_, hcut.source_eq.symm⟩ ⟨_, hsource.symm⟩ hsame
  obtain ⟨rfl, rfl⟩ := List.cons.inj ((List.append_right_inj a').1 (hcut.source_eq.symm.trans hsource))
  exact ⟨others, others', hcut⟩

private theorem exists_cut_of_blanks {p : Position} {gap below : Text}
    (h : Lexeme.cut p false (gap ++ below) = .ok ys)
    (hgap : ∀ c ∈ gap, Text.isBlank c = true) (hbelow : ∀ c ∈ below.head?, Text.isBlank c = false) :
    ∃ front others spaces, ys = front ++ others ∧ Lexeme.cut (p.advance gap) false below = .ok others ∧
      Spaces spaces ∧ ∀ i final, ofLexemes i final ys = spaces ++ ofLexemes i final others := by
  cases gap with
  | nil => exact ⟨[], ys, [], rfl, h, by simp [Spaces], fun _ _ => rfl⟩
  | cons c gap =>
    have hread : Lexeme.read false c (gap ++ below) = .ok (.plain .space (c :: gap)) :=
      Lexeme.read_blanks hgap hbelow
    rw [List.cons_append, cut_of_read hread, ← List.cons_append] at h
    obtain ⟨others, hcut, rfl⟩ := exists_of_map_ok h
    rw [Lexeme.text_plain, List.drop_left] at hcut
    exact ⟨[_], others, [⟨.space, c :: gap, p⟩], rfl, hcut, by simp [Spaces], fun _ _ => rfl⟩

/-- The blanks behind the last line break count. -/
private theorem width_append {a run : Text} (hrun : ∃ c ∈ run, Text.isBreak c = true) :
    width (a ++ run) = width run := by
  obtain ⟨c, hc, hbreak⟩ := hrun
  have hblank := Lexeme.isBlank_eq_false_of_isBreak hbreak
  obtain ⟨u, v, rfl⟩ := List.append_of_mem hc
  have hbehind : ∀ u v, width (u ++ c :: v) = (v.reverse.takeWhile Text.isBlank).length := by
    intro u v
    rw [width, List.reverse_append, List.reverse_cons, List.append_assoc, List.singleton_append,
      Lexeme.takeWhile_append_stop _ _ hblank]
  rw [← List.append_assoc, hbehind, hbehind]

/-- The lexemes `ys` are the last ones of a source. -/
structure Trails (source : Text) (ys : List (Position × Lexeme)) : Prop where
  wellFormed : ∀ y ∈ ys, y.2.WellFormed
  lineAt : ∀ front q run others kind, ys = front ++ (q, .breaks run) :: others →
    LineAt source (token q kind) (width run)

private theorem trails_of_cut {source : Text} {others : List (Position × Lexeme)}
    (h : Lexeme.cut (Position.start.advance (margin source)) true (body source) = .ok (others ++ ys)) :
    Trails source ys := by
  refine ⟨fun y hy => (Lexeme.wellFormed_of_cut h y (by simp [hy])).1, ?_⟩
  rintro front q run later kind rfl
  exact lineAt_of_run h (List.append_assoc _ _ _).symm

private theorem Trails.tail {source : Text} {y : Position × Lexeme} (h : Trails source (y :: ys)) :
    Trails source ys :=
  ⟨(List.forall_mem_cons.1 h.wellFormed).2,
    fun front q run others kind hys => h.lineAt (y :: front) q run others kind (congrArg (y :: ·) hys)⟩

/-- What becomes of the first line behind one that is indented by `n`: whatever it was, its indentation
tells what it is now. If that is not less than `base`, all is as before behind it. -/
def brokenAt (source : Text) (base n : Nat) : Outcome where
  stays t := LineAt source t n
  closes t := ∃ m < n, LineAt source t m
  settles t := ∃ m, base ≤ m ∧ LineAt source t m

private theorem tells_brokenAt {source : Text} {base n m : Nat} {q : Position} (hi : i.Nested) (hbase : i.base ≤ base)
    (hdeep : base < n) (h : ∀ kind, LineAt source (token q kind) m) :
    (brokenAt source base n).Tells i (i.enter n).1 q m := by
  have henters := i.enters n
  have hnested := henters.nested hi
  have hsame : (i.enter n).1.base = i.base := by
    rw [henters.base_eq, if_neg (by omega)]
  have hlevel : (i.enter n).1.level = n := (henters.level_eq_iff hi).2 (by omega)
  have hopened : (i.enter n).1.opened ≠ [] := mt hnested.opened_eq_nil_iff.1 (by omega)
  have hm {k : Nat} {kind : Kind} (hk : LineAt source (token q kind) k) : k = m := hk.unique (h kind)
  refine ⟨fun _ => ?_, fun _ => ?_, ?_⟩
  · rw [((i.enter n).1.enters m).eq_newline_iff, hlevel, or_iff_left (fun h => hopened h.1)]
    exact ⟨fun heq => heq ▸ h _, hm⟩
  · rw [((i.enter n).1.enters m).head?_eq_outdent_iff, hlevel, and_iff_left hopened]
    refine ⟨fun hlt => ⟨m, hlt, h _⟩, ?_⟩
    rintro ⟨k, hlt, hk⟩
    exact hm hk ▸ hlt
  · rintro kind ⟨k, hle, hk⟩
    obtain rfl := hm hk
    exact Indentation.agrees_enter hi hnested hsame (by omega)

/-- The tokens behind a line break, where filler stood before. The words stay. If a line ended in the
filler, all lines stay or close as they did; else the next line goes on from a line indented by `n`. -/
def Rebroken (source : Text) (base n : Nat) (behind behind' : List Token) : Prop :=
  ∃ filler rest filler' rest', behind = filler ++ rest ∧ behind' = filler' ++ rest' ∧ Filler filler ∧
    (∀ t ∈ filler', t.kind.isLayout = true) ∧
    ((∃ t ∈ filler, t.kind.isLayout = true) ∧ Redrawn .kept rest rest' ∨
      Spaces filler ∧ Redrawn (brokenAt source base n) rest rest')

section
variable {source text below run : Text} {base : Nat} {c d : Char} {spaces : List Token} {p q : Position}

theorem turnOf_eq (i : Indentation) (p : Position) (run : Text) : turnOf i p run =
    (Indentation.blankKinds run ++ (i.afterRun run false).2).map (token p) := by
  rw [List.map_append, ← Indentation.blanks_eq]
  rfl

private theorem exists_rebroken_of_content (hys : Trails source ys) (hi : i.Nested) (hbase : i.base ≤ base)
    (hcut : Lexeme.cut p false (d :: text) = .ok ys) (hspaces : Spaces spaces)
    (hc : Text.isBreak c = true) (hrun : ∀ e ∈ run, isRun e = true) (hd : isRun d = false) (hhash : d ≠ '#')
    (hdeep : base < width (c :: run)) : ∃ behind', scan i q false (c :: run ++ d :: text) = .ok behind' ∧
      Rebroken source base (width (c :: run))
        (spaces ++ ofLexemes i (Position.start.advance (Text.dropMark source)) ys) behind' := by
  have henters := i.enters (width (c :: run))
  obtain ⟨ys', hys', hsame⟩ := exists_cut_elsewhere hcut (q.advance (c :: run))
  have hscan : scan (i.enter (width (c :: run))).1 (q.advance (c :: run)) true (d :: text) =
      .ok (ofLexemes (i.enter (width (c :: run))).1 ((q.advance (c :: run)).advance (d :: text)) ys') := by
    rw [scan_of_ne_hash hhash]
    unfold scan
    rw [hys']
    rfl
  refine ⟨_, (scans_turn hc hrun hd q ⟨i, false⟩).scan_eq_ok hscan, spaces, _, turnOf i q (c :: run), _, rfl, rfl,
    hspaces.filler, ?_, .inr ⟨hspaces, redrawn_ofLexemes _ _ hsame hys.wellFormed ?_ fun _ => ?_⟩⟩
  · rw [turnOf_eq]
    exact List.forall_mem_map.2 (layout_of_run i (c :: run) false).2
  · exact fun front q' r later h _ =>
      tells_brokenAt hi hbase hdeep fun kind => hys.lineAt front q' r later kind h
  · have hlevel : (i.enter (width (c :: run))).1.level = width (c :: run) :=
      (henters.level_eq_iff hi).2 (by omega)
    have hle := henters.base_le
    exact iff_of_true (mt (henters.nested hi).opened_eq_nil_iff.1 (by omega)) ⟨0, by omega, lineAt_final rfl⟩

private theorem exists_rebroken_of_break (hys : Trails source ys) (hi : i.Nested)
    (hcut : Lexeme.cut p false (d :: text) = .ok ys) (hspaces : Spaces spaces)
    (hc : Text.isBreak c = true) (hrun : ∀ e ∈ run, isRun e = true) (hd : Text.isBreak d = true) (n : Nat) :
    ∃ behind', scan i q false (c :: run ++ d :: text) = .ok behind' ∧ Rebroken source base n
      (spaces ++ ofLexemes i (Position.start.advance (Text.dropMark source)) ys) behind' := by
  have hall : ∀ e ∈ c :: run, isRun e = true := by simpa [isRun, hc] using hrun
  have hread : Lexeme.read false d text = .ok (.breaks ((d :: text).takeWhile isRun)) := Lexeme.read_breaks hd text
  have hread' : Lexeme.read false c (run ++ d :: text) =
      .ok (.breaks (c :: run ++ (d :: text).takeWhile isRun)) := by
    rw [Lexeme.read_breaks hc, ← List.cons_append, List.takeWhile_append_of_pos hall]
  have hbroken : ∃ e ∈ (d :: text).takeWhile isRun, Text.isBreak e = true := ⟨d, by simp [isRun, hd], hd⟩
  rw [cut_of_read hread] at hcut
  obtain ⟨others, hothers, rfl⟩ := exists_of_map_ok hcut
  simp only [Lexeme.text, Lexeme.isBreaks] at hothers
  obtain ⟨others', hothers', hsame⟩ :=
    exists_cut_elsewhere hothers (q.advance (c :: run ++ (d :: text).takeWhile isRun))
  have hempty : others'.isEmpty = others.isEmpty := by rw [← List.isEmpty_map, hsame, List.isEmpty_map]
  have hlevels : i.afterRun (c :: run ++ (d :: text).takeWhile isRun) others.isEmpty =
      i.afterRun ((d :: text).takeWhile isRun) others.isEmpty := by
    unfold Indentation.afterRun
    rw [width_append hbroken]
  have hscan : scan i q false (c :: run ++ d :: text) = .ok (ofLexemes i (q.advance (c :: run ++ d :: text))
      ((q, .breaks (c :: run ++ (d :: text).takeWhile isRun)) :: others')) := by
    unfold scan
    rw [List.cons_append, cut_of_read hread']
    simp only [Lexeme.text, Lexeme.isBreaks]
    rw [← List.cons_append, List.length_append, List.drop_length_add_append, hothers']
    rfl
  rw [ofLexemes_breaks, hempty, hlevels] at hscan
  rw [ofLexemes_breaks, ← List.append_assoc]
  obtain ⟨hne, hkinds⟩ := layout_of_run i ((d :: text).takeWhile isRun) others.isEmpty
  have hkinds' := (layout_of_run i (c :: run ++ (d :: text).takeWhile isRun) others.isEmpty).2
  rw [hlevels] at hkinds'
  have hagrees := (Indentation.nested_afterRun hi ((d :: text).takeWhile isRun) others.isEmpty).agrees
  refine ⟨_, hscan, _, _, _, _, rfl, rfl, ?_, List.forall_mem_map.2 hkinds', .inl ⟨?_, ?_⟩⟩
  · exact List.forall_mem_append.2 ⟨hspaces.filler, Expression.filler_of_layout (List.forall_mem_map.2 hkinds)⟩
  · obtain ⟨kind, hkind⟩ := List.exists_mem_of_ne_nil _ hne
    exact ⟨token p kind, List.mem_append_right _ (List.mem_map_of_mem hkind), hkinds kind hkind⟩
  · exact redrawn_ofLexemes _ _ hsame hys.tail.wellFormed (fun _ q' run' _ _ _ => tells_kept hagrees q' (width run'))
      fun hopened => iff_of_true hopened trivial

private theorem exists_rebroken_of_end (hys : Lexeme.cut p false [] = .ok ys) (hspaces : Spaces spaces)
    (hc : Text.isBreak c = true) (hrun : ∀ e ∈ run, isRun e = true) {n : Nat} (hn : 0 < n) :
    ∃ behind', scan i q false (c :: run) = .ok behind' ∧ Rebroken source base n
      (spaces ++ ofLexemes i (Position.start.advance (Text.dropMark source)) ys) behind' := by
  rw [Lexeme.cut] at hys
  obtain rfl := Except.ok.inj hys
  refine ⟨_, scan_last_run hc hrun i q false, spaces, i.finish _, Indentation.blanks q (c :: run) ++ [token q .newline],
    _, rfl, (List.append_cons _ _ _), hspaces.filler, ?_, .inr ⟨hspaces, ?_⟩⟩
  · rw [Indentation.blanks_eq, ← List.map_singleton, ← List.map_append]
    exact List.forall_mem_map.2 (layout_of_run i (c :: run) true).2
  · show Redrawn _ ([] ++ i.finish _) ([] ++ i.finish _)
    exact redrawn_finish _ (by simp) (by simp) (by simp) Iff.rfl fun hopened =>
      iff_of_true hopened ⟨0, hn, lineAt_final rfl⟩

end

/-- Where a line is broken behind a mark, the tokens in front of it and the mark stay. The new line is
deeper than one in front of it that stayed on its level. -/
theorem exists_stream_of_break {source source' a gap below run : Text} {k c : Char} {line : Token} {base : Nat}
    (hstream : stream source = .ok (front ++ mark :: behind)) (hmark : mark.kind ∈ arrayMarks)
    (hplace : mark.position = .behind a) (hsource : Text.dropMark source = a ++ k :: (gap ++ below))
    (hgap : ∀ d ∈ gap, Text.isBlank d = true) (hbelow : ∀ d ∈ below.head?, Text.isBlank d = false)
    (hhash : below.head? ≠ some '#') (hline : line ∈ front) (hkind : line.kind = .newline)
    (hbase : LineAt source line base) (hc : Text.isBreak c = true) (hrun : ∀ d ∈ run, isRun d = true)
    (hdeep : base < width (c :: run)) (hsource' : Text.dropMark source' = a ++ k :: (c :: run ++ below)) :
    ∃ behind', stream source' = .ok (front ++ mark :: behind') ∧
      Rebroken source base (width (c :: run)) behind behind' := by
  obtain ⟨others, others', -, -, -, hcut, rfl, hcut', hlines, hagain⟩ :=
    exists_cutAt hstream (List.mem_cons_of_mem _ hmark) hplace hsource
  obtain ⟨gapped, ys, spaces, rfl, hys, hspaces, htokens⟩ := exists_cut_of_blanks hcut' hgap hbelow
  have hi : ((opening source).behind others).levels.Nested := nested_behind (Indentation.nested_nil _) others
  have hle := hlines line hline hkind base hbase
  have hwhole : Lexeme.cut (Position.start.advance (margin source)) true (body source) =
      .ok ((others ++ (mark.position, .plain mark.kind mark.value) :: gapped) ++ ys) := by
    rw [hcut]
    simp
  have htrails := trails_of_cut hwhole
  obtain ⟨behind', hscan, hrebroken⟩ : ∃ behind', scan ((opening source).behind others).levels
      (Position.start.advance (a ++ [k])) false (c :: run ++ below) = .ok behind' ∧
      Rebroken source base (width (c :: run)) (spaces ++ ofLexemes ((opening source).behind others).levels
        (Position.start.advance (Text.dropMark source)) ys) behind' := by
    cases below with
    | nil =>
      rw [List.append_nil]
      exact exists_rebroken_of_end hys hspaces hc hrun (by omega)
    | cons d text =>
      cases hd : isRun d with
      | false => exact exists_rebroken_of_content htrails hi hle hys hspaces hc hrun hd (by simpa using hhash) hdeep
      | true =>
        have hbreak : Text.isBreak d = true := by simpa [isRun, hbelow d rfl] using hd
        exact exists_rebroken_of_break htrails hi hys hspaces hc hrun hbreak _
  refine ⟨behind', ?_, ?_⟩
  · rw [hagain source' _ hsource', hscan]
    rfl
  · rwa [htokens]

private theorem read_hash (rest : Text) :
    Lexeme.read false '#' rest = .ok (.plain .operator (Lexeme.operator '#' rest)) := by
  have hletter : Text.isLetter '#' = false := by decide
  have hnumber : Lexeme.startsNumber '#' rest = false := by simp [Lexeme.startsNumber]
  simp [Lexeme.read, Text.isBreak, Text.isBlank, hletter, hnumber, Lexeme.mark?, Lexeme.operatorCharacters]

theorem exists_operator_of_hash {source a gap text : Text} {k : Char}
    (hstream : stream source = .ok (front ++ mark :: behind)) (hmark : mark.kind ∈ arrayMarks)
    (hplace : mark.position = .behind a) (hsource : Text.dropMark source = a ++ k :: (gap ++ '#' :: text))
    (hgap : ∀ d ∈ gap, Text.isBlank d = true) : ∃ spaces t more, behind = spaces ++ t :: more ∧
      Spaces spaces ∧ t.kind = .operator ∧ t.value.head? = some '#' := by
  obtain ⟨others, others', -, -, -, -, rfl, hcut, -, -⟩ :=
    exists_cutAt hstream (List.mem_cons_of_mem _ hmark) hplace hsource
  obtain ⟨-, ys, spaces, -, hys, hspaces, htokens⟩ := exists_cut_of_blanks hcut hgap (by simp [Text.isBlank])
  rw [cut_of_read (read_hash text)] at hys
  obtain ⟨later, -, rfl⟩ := exists_of_map_ok hys
  refine ⟨spaces, _, _, htokens _ _, hspaces, rfl, ?_⟩
  show (Lexeme.operator '#' text).head? = some '#'
  unfold Lexeme.operator
  split
  · split <;> rfl
  · rfl

end

end Token
end SqfLayout
