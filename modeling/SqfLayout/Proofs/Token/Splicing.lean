import SqfLayout.Proofs.Lexeme.Locality
import SqfLayout.Proofs.Token.Places

/-! The tokens in front of a bar, whatever stands behind it. -/
namespace SqfLayout

namespace Position
variable {p : Position}

theorem le_of_eq {q : Position} (h : p = q) : p ≤ q := h ▸ le_refl p

private theorem not_step_le (p : Position) (c : Char) : ¬ p.step c ≤ p := by
  unfold step
  split <;> simp [le_def]

theorem not_advance_le {t : Text} (ht : t ≠ []) : ¬ p.advance t ≤ p := by
  obtain ⟨c, rest, rfl⟩ := List.exists_cons_of_ne_nil ht
  exact fun h => not_step_le p c (le_trans (le_advance (p.step c) rest) h)

theorem eq_of_advance_eq {a b t : Text} (ha : a <+: t) (hb : b <+: t) (h : p.advance a = p.advance b) :
    a = b := by
  have hshorter : ∀ {a b : Text}, a <+: b → p.advance a = p.advance b → a = b := by
    rintro a _ ⟨more, rfl⟩ h
    by_cases hmore : more = []
    · rw [hmore, List.append_nil]
    · rw [advance_append] at h
      exact absurd (le_of_eq h.symm) (not_advance_le hmore)
  rcases Nat.le_total a.length b.length with hlength | hlength
  · exact hshorter (List.prefix_of_prefix_length_le ha hb hlength) h
  · exact (hshorter (List.prefix_of_prefix_length_le hb ha hlength) h.symm).symm

end Position

namespace Token
open Lexeme (isRun bars)

/-- The text that lexemes were read from. -/
def lexedText (ys : List (Position × Lexeme)) : Text := ys.flatMap fun y => y.2.text

section
variable {p : Position} {lineStart : Bool} {text : Text} {s : Stage}

theorem exists_read_of_cut {q : Position} {x : Lexeme} {others : List (Position × Lexeme)}
    (h : Lexeme.cut p lineStart text = .ok ((q, x) :: others)) :
    ∃ c rest more, text = c :: rest ∧ text = x.text ++ more ∧ Lexeme.read lineStart c rest = .ok x ∧
      q = p ∧ Lexeme.cut (p.advance x.text) x.isBreaks more = .ok others := by
  cases text with
  | nil =>
    rw [Lexeme.cut] at h
    cases h
  | cons c rest =>
    cases hread : Lexeme.read lineStart c rest with
    | error stuck =>
      rw [cut_of_stuck hread] at h
      cases h
    | ok y =>
      rw [cut_of_read hread] at h
      obtain ⟨others', hcut, hcons⟩ := exists_of_map_ok h
      cases hcons
      exact ⟨c, rest, _, rfl, eq_append_drop_of_read hread, hread, rfl, hcut⟩

theorem isBreak_of_read {c : Char} {rest : Text} {x : Lexeme} (h : Lexeme.read lineStart c rest = .ok x)
    (hx : x.isBreaks = true) : Text.isBreak c = true := by
  cases Lexeme.reads_of_read h with
  | breaks hc => exact hc
  | directive _ hread =>
    obtain ⟨_, _, _, rfl⟩ | ⟨_, rfl⟩ := Lexeme.readDirective_cases hread <;> cases hx
  | space | blockComment | lineComment | string | number | command | mark | operator => cases hx

/-- The tokens of a run of line breaks before other text. -/
def turnOf (i : Indentation) (p : Position) (run : Text) : List Token :=
  Indentation.blanks p run ++ (i.enter (Indentation.width run)).2.map (Indentation.token p)

/-- The stage behind a lexeme. -/
def Stage.after (s : Stage) : Lexeme → Stage
  | .breaks run => ⟨(s.levels.enter (Indentation.width run)).1, true⟩
  | _ => ⟨s.levels, false⟩

def Stage.behind (s : Stage) (ys : List (Position × Lexeme)) : Stage :=
  ys.foldl (fun s y => s.after y.2) s

theorem lineStart_after (s : Stage) (x : Lexeme) : (s.after x).lineStart = x.isBreaks := by
  cases x <;> rfl

private theorem cut_behind {front others : List (Position × Lexeme)}
    (h : Lexeme.cut p s.lineStart text = .ok (front ++ others)) :
    ∃ more, text = lexedText front ++ more ∧
      Lexeme.cut (p.advance (lexedText front)) (s.behind front).lineStart more = .ok others := by
  induction front generalizing p s text with
  | nil => exact ⟨text, rfl, h⟩
  | cons y front ih =>
    obtain ⟨-, -, more, -, rfl, -, -, hcut⟩ := exists_read_of_cut h
    rw [← lineStart_after s] at hcut
    obtain ⟨more', rfl, hothers⟩ := ih hcut
    refine ⟨more', (List.append_assoc _ _ _).symm, ?_⟩
    rwa [← Position.advance_append] at hothers

theorem after_of_isBreaks_eq_false {x : Lexeme} (hx : x.isBreaks = false) : s.after x = ⟨s.levels, false⟩ := by
  cases x with
  | breaks => cases hx
  | _ => rfl

theorem scans_turn {run more : Text} {c d : Char} (hc : Text.isBreak c = true)
    (hrun : ∀ e ∈ run, isRun e = true) (hd : isRun d = false) (p : Position) (s : Stage) :
    Scans p s (c :: run) (d :: more) (turnOf s.levels p (c :: run)) (s.after (.breaks (c :: run))) :=
  scans_breaks hc hrun hd

private theorem scans_nil {more : Text} : Scans p s [] more [] s := by
  show scan s.levels p s.lineStart more = (scan s.levels p s.lineStart more).map ([] ++ ·)
  cases scan s.levels p s.lineStart more <;> rfl

private theorem exists_scans_of_read {c k : Char} {r a : Text} {x : Lexeme} (htext : x.text = c :: r)
    (h : ∀ m, Lexeme.read s.lineStart c (r ++ (a ++ k :: m)) = .ok x) (p : Position) :
    ∃ ts, ∀ m, Scans p s x.text (a ++ k :: m) ts (s.after x) := by
  cases hx : x.isBreaks with
  | false =>
    refine ⟨x.tokens p, fun m => ?_⟩
    rw [htext, after_of_isBreaks_eq_false hx]
    exact scans_of_read (h m) hx htext
  | true =>
    have hc := isBreak_of_read (h []) hx
    have hwhole : ∀ m, c :: (r ++ (a ++ k :: m)) = x.text ++ (a ++ k :: m) := by simp [htext]
    obtain ⟨run, rfl, hrun, -, -⟩ := eq_breaks_of_read (h []) hx (hwhole [])
    obtain rfl : run = c :: r := htext
    refine ⟨turnOf s.levels p (c :: r), fun m => ?_⟩
    obtain ⟨-, -, -, -, hend⟩ := eq_breaks_of_read (h m) hx (hwhole m)
    obtain ⟨d, more, hmore⟩ : ∃ d more, a ++ k :: m = d :: more :=
      List.exists_cons_of_ne_nil (by simp)
    rw [hmore] at hend ⊢
    exact scans_turn hc (fun e he => hrun e (by simp [he])) (hend d rfl) p s

private theorem exists_scans_of_cut {a m : Text} {k : Char} {front others : List (Position × Lexeme)} (hk : k ∈ bars)
    (h : Lexeme.cut p s.lineStart (a ++ k :: m) = .ok (front ++ others)) (hfront : lexedText front = a) :
    ∃ ts, ∀ m', Scans p s a (k :: m') ts (s.behind front) := by
  induction front generalizing p s a with
  | nil =>
    subst hfront
    exact ⟨[], fun m' => scans_nil⟩
  | cons y front ih =>
    obtain ⟨c, rest, more, htext, hmore, hread, -, hcut⟩ := exists_read_of_cut h
    obtain ⟨-, hne⟩ := Lexeme.read_isPrefix hread
    obtain ⟨d, r, hr⟩ := List.exists_cons_of_ne_nil hne
    obtain rfl : y.2.text ++ lexedText front = a := hfront
    have hmore' : more = lexedText front ++ k :: m := by
      refine (List.append_right_inj y.2.text).1 ?_
      rw [← hmore, List.append_assoc]
    rw [hr, List.cons_append, List.cons_append, List.append_assoc] at htext
    obtain ⟨rfl, rfl⟩ := List.cons.inj htext
    rw [← List.append_assoc] at hread
    have hagain : ∀ m', Lexeme.read s.lineStart d (r ++ (lexedText front ++ k :: m')) = .ok y.2 := by
      intro m'
      rw [← List.append_assoc]
      refine Lexeme.read_local hk hread ?_ m'
      simp only [hr, List.length_cons, List.length_append]
      omega
    obtain ⟨ts, hts⟩ := exists_scans_of_read hr hagain p
    rw [hmore', ← lineStart_after s y.2] at hcut
    obtain ⟨ts', hts'⟩ := ih hcut rfl
    exact ⟨ts ++ ts', fun m' => (hts m').append (hts' m')⟩

end

/-- Where a scan starts in a source. -/
def opening (source : Text) : Stage := ⟨⟨(margin source).length, []⟩, true⟩

theorem exists_read_at {source : Text} {front others : List (Position × Lexeme)} {q : Position} {x : Lexeme}
    (hcut : Lexeme.cut (Position.start.advance (margin source)) true (body source) =
      .ok (front ++ (q, x) :: others)) :
    ∃ k m more, Text.dropMark source = margin source ++ lexedText front ++ k :: m ∧
      q = .behind (margin source ++ lexedText front) ∧
      Lexeme.read ((opening source).behind front).lineStart k m = .ok x ∧
      k :: m = x.text ++ more ∧ Lexeme.cut (q.advance x.text) x.isBreaks more = .ok others := by
  obtain ⟨text, hbody, hbehind⟩ := cut_behind (s := opening source) hcut
  obtain ⟨k, m, more, rfl, hwhole, hread, rfl, hothers⟩ := exists_read_of_cut hbehind
  refine ⟨k, m, more, ?_, ?_, hread, hwhole, hothers⟩
  · rw [← margin_append_body, hbody, List.append_assoc]
  · rw [← Position.advance_append, Position.start_advance]

/-- Where a source is cut in front of a bar, any source that goes on otherwise behind the bar starts with
the same tokens. -/
theorem exists_stream_of_cut {source a m : Text} {k : Char} {front others : List (Position × Lexeme)}
    (hk : k ∈ bars) (hblank : Text.isBlank k = false) (hsource : Text.dropMark source = a ++ k :: m)
    (hcut : Lexeme.cut (Position.start.advance (margin source)) true (body source) = .ok (front ++ others))
    (hfront : margin source ++ lexedText front = a) :
    ∃ ts, ∀ source' m', Text.dropMark source' = a ++ k :: m' → stream source' =
      (scan ((opening source).behind front).levels (Position.start.advance a)
        ((opening source).behind front).lineStart (k :: m')).map (ts ++ ·) := by
  subst hfront
  have hmargin : ∀ {source' m'}, Text.dropMark source' = margin source ++ lexedText front ++ k :: m' →
      margin source' = margin source ∧ body source' = lexedText front ++ k :: m' := by
    intro source' m' hsource'
    have hm : margin source' = margin source := by
      calc margin source' = (margin source ++ lexedText front ++ k :: m').takeWhile Text.isBlank := by
            rw [← hsource']
            rfl
        _ = (margin source ++ lexedText front ++ k :: m).takeWhile Text.isBlank := by
            rw [Lexeme.takeWhile_append_stop _ _ hblank, Lexeme.takeWhile_append_stop _ _ hblank]
        _ = margin source := by
            rw [← hsource]
            rfl
    refine ⟨hm, (List.append_right_inj (margin source)).1 ?_⟩
    rw [← hm, margin_append_body, hsource', hm, List.append_assoc]
  have hbody := (hmargin hsource).2
  rw [hbody] at hcut
  obtain ⟨ts, hts⟩ := exists_scans_of_cut (s := opening source) hk hcut rfl
  refine ⟨ts, fun source' m' hsource' => ?_⟩
  obtain ⟨hm, hb⟩ := hmargin hsource'
  rw [stream_eq_scan]
  show scan ⟨(margin source').length, []⟩ (Position.start.advance (margin source')) true (body source') = _
  rw [hm, hb, Position.advance_append]
  exact hts m'

theorem position_of_finish {i : Indentation} {final : Position} {t : Token} (ht : t ∈ i.finish final) :
    t.position = final ∧ (t.kind = .outdent ∨ t.kind = .eos) := by
  obtain ht | ht := List.mem_append.1 ht
  · obtain ⟨_, -, rfl⟩ := List.mem_map.1 ht
    exact ⟨rfl, .inl rfl⟩
  · rw [List.mem_singleton.1 ht]
    exact ⟨rfl, .inr rfl⟩

theorem exists_lexeme_of_mem {i : Indentation} {final : Position} {ys : List (Position × Lexeme)} {t : Token}
    (ht : t ∈ ofLexemes i final ys) (hend : ∀ j : Indentation, t ∉ j.finish final) :
    ∃ front q x others, ys = front ++ (q, x) :: others ∧
      ((x.isBreaks = true ∧ t.kind.isLayout = true ∧ t.position = q) ∨
        (x.isBreaks = false ∧ t ∈ x.tokens q)) := by
  induction ys generalizing i with
  | nil => exact absurd ht (hend i)
  | cons y ys ih =>
    obtain ⟨q, x⟩ := y
    have hlater : ∀ {i : Indentation}, t ∈ ofLexemes i final ys → ∃ front q' x' others,
        (q, x) :: ys = front ++ (q', x') :: others ∧
          ((x'.isBreaks = true ∧ t.kind.isLayout = true ∧ t.position = q') ∨
            (x'.isBreaks = false ∧ t ∈ x'.tokens q')) := by
      intro i hmem
      obtain ⟨front, q', x', others, rfl, hx'⟩ := ih hmem
      exact ⟨(q, x) :: front, q', x', others, rfl, hx'⟩
    cases hx : x.isBreaks with
    | false =>
      rw [ofLexemes_of_isBreaks_eq_false hx] at ht
      rcases List.mem_append.1 ht with ht | ht
      · exact ⟨[], q, x, ys, rfl, .inr ⟨hx, ht⟩⟩
      · exact hlater ht
    | true =>
      cases x with
      | breaks run =>
        rw [ofLexemes_breaks] at ht
        rcases List.mem_append.1 ht with ht | ht
        · obtain ⟨kind, hkind, rfl⟩ := List.mem_map.1 ht
          exact ⟨[], q, .breaks run, ys, rfl, .inl ⟨rfl, (layout_of_run i run ys.isEmpty).2 kind hkind, rfl⟩⟩
        · exact hlater ht
      | _ => cases hx

section
variable {source a m : Text} {tokens : List Token} {t : Token}

theorem exists_run_of_layout (h : stream source = .ok tokens) (ht : t ∈ tokens) (hlayout : t.kind.isLayout = true)
    (hend : ∀ j : Indentation, t ∉ j.finish (Position.start.advance (Text.dropMark source))) :
    ∃ front run others, Lexeme.cut (Position.start.advance (margin source)) true (body source) =
      .ok (front ++ (t.position, .breaks run) :: others) := by
  obtain ⟨ys, hcut, rfl⟩ := exists_cut_of_stream h
  obtain ⟨front, q, x, others, rfl, ⟨hx, -, rfl⟩ | ⟨hx, hmem⟩⟩ := exists_lexeme_of_mem ht hend
  · cases x with
    | breaks run => exact ⟨front, run, others, hcut⟩
    | _ => cases hx
  · have hwell := (Lexeme.wellFormed_of_cut hcut (q, x) (by simp)).1
    rw [(isLayout_of_lexeme hwell q t hmem).1] at hlayout
    cases hlayout

theorem exists_cut_of_layout (h : stream source = .ok tokens) (ht : t ∈ tokens)
    (hlayout : t.kind.isLayout = true) (hplace : t.position = Position.behind a)
    (hsource : Text.dropMark source = a ++ m) (hm : m ≠ []) :
    ∃ front run others, margin source ++ lexedText front = a ∧
      Lexeme.cut (Position.start.advance (margin source)) true (body source) =
        .ok (front ++ (t.position, .breaks run) :: others) := by
  have hend : t.position ≠ Position.start.advance (Text.dropMark source) := by
    rw [hplace, hsource, ← Position.start_advance, Position.advance_append]
    exact fun h => Position.not_advance_le hm (Position.le_of_eq h.symm)
  obtain ⟨front, run, others, hcut⟩ :=
    exists_run_of_layout h ht hlayout fun j hmem => hend (position_of_finish hmem).1
  refine ⟨front, run, others, ?_, hcut⟩
  obtain ⟨k, more, -, hwhole, hq, -⟩ := exists_read_at hcut
  rw [hplace, ← Position.start_advance, ← Position.start_advance] at hq
  exact (Position.eq_of_advance_eq ⟨m, hsource.symm⟩ ⟨k :: more, hwhole.symm⟩ hq).symm

theorem le_position_of_scan {i : Indentation} {before text : Text} {lineStart : Bool} {ts : List Token}
    (h : scan i (Position.start.advance before) lineStart text = .ok ts) :
    ∀ t ∈ ts, Position.start.advance before ≤ t.position := by
  unfold scan at h
  obtain ⟨ys, hcut, rfl⟩ := exists_of_map_ok h
  obtain ⟨xs, j, hxs, -, -, hfollow⟩ := exists_pieces_of_cut hcut i
    ((Position.start.advance before).advance text)
  intro t ht
  rw [hxs] at ht
  rcases List.mem_append.1 ht with ht | ht
  · exact (hfollow.between t ht).1
  · rw [(position_of_finish ht).1]
    exact Position.le_advance _ _

end

end Token
end SqfLayout
