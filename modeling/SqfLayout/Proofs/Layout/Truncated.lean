import SqfLayout.Proofs.Layout.Below
import SqfLayout.Proofs.Layout.Rejection
import SqfLayout.Proofs.Token.Breaking

/-! Files that are cut short inside the statement that binds the parameters. The end of a file closes the
levels that are open there, so the cut right behind the last entry is not noticed; any other is. -/
namespace SqfLayout

namespace Text

private theorem dropMark_isPrefix {text source : Text} (h : text <+: source) : dropMark text <+: dropMark source := by
  obtain ⟨more, rfl⟩ := h
  by_cases htext : text = []
  · rw [htext]
    exact List.nil_prefix
  · rw [Layout.dropMark_append htext]
    exact List.prefix_append _ _

private theorem exists_mark (source : Text) : ∃ start, source = start ++ dropMark source ∧
    ∀ text, text ≠ [] → text <+: source → text = start ++ dropMark text := by
  cases source with
  | nil => exact ⟨[], rfl, fun text htext hbegins => absurd (List.prefix_nil.1 hbegins) htext⟩
  | cons c rest =>
    have hfirst {text : Text} (htext : text ≠ []) (hbegins : text <+: c :: rest) : ∃ more, text = c :: more := by
      obtain ⟨d, more, rfl⟩ := List.exists_cons_of_ne_nil htext
      obtain ⟨rfl, -⟩ := List.cons_prefix_cons.1 hbegins
      exact ⟨more, rfl⟩
    by_cases hc : c = '\uFEFF'
    · refine ⟨[c], by simp [dropMark, hc], fun text htext hbegins => ?_⟩
      obtain ⟨more, rfl⟩ := hfirst htext hbegins
      simp [dropMark, hc]
    · refine ⟨[], by simp [dropMark, hc], fun text htext hbegins => ?_⟩
      obtain ⟨more, rfl⟩ := hfirst htext hbegins
      simp [dropMark, hc]

end Text

namespace Position

private theorem exists_append_of_le {a b t : Text} (ha : a <+: t) (hb : b <+: t) (h : behind a ≤ behind b) :
    ∃ more, b = a ++ more := by
  obtain ⟨more, hmore⟩ | ⟨more, rfl⟩ := List.prefix_or_prefix_of_prefix ha hb
  · exact ⟨more, hmore.symm⟩
  · rw [← start_advance, ← start_advance, advance_append] at h
    have hnil : more = [] := Decidable.byContradiction fun hne => not_advance_le hne h
    exact ⟨[], by rw [hnil, List.append_nil, List.append_nil]⟩

end Position

namespace Token
open Lexeme (isRun)
open Layout (IsBreaks)

section
variable {source source' : Text} {tokens tokens' front rest : List Token} {comment blank : Token}

/-- What stands up to a comment with a line break behind it gives the same tokens wherever the source goes
on. -/
private theorem exists_rest_of_comment (h : stream source = .ok (front ++ comment :: blank :: rest))
    (hcomment : comment.kind = .blockComment) (hblank : blank.kind = .blank)
    (h' : stream source' = .ok tokens') (hbegins : Text.dropMark source <+: Text.dropMark source') :
    ∃ rest', tokens' = front ++ comment :: rest' := by
  obtain ⟨before, text, hbefore, hplace, hdelimited⟩ := exists_place_of_mem h (t := comment) (by simp)
  obtain ⟨after, rfl⟩ := hdelimited hcomment
  have hend (j : Indentation) : blank ∉ j.finish (Position.start.advance (Text.dropMark source)) := by
    intro hmem
    obtain ⟨-, hkind | hkind⟩ := position_of_finish hmem <;> rw [hblank] at hkind <;> cases hkind
  obtain ⟨ys, run, others, hcut⟩ := exists_run_of_layout h (t := blank) (by simp) (by simp [hblank, Kind.isLayout]) hend
  obtain ⟨k, m, _, hsource, hblankPlace, hread, -⟩ := exists_read_at hcut
  have hk : Text.isBreak k = true := isBreak_of_read hread rfl
  have hnoblank := Lexeme.isBlank_eq_false_of_isBreak hk
  obtain ⟨ts, hts⟩ := exists_stream_of_cut (Lexeme.mem_bars_of_isBreak hk) hnoblank hsource hcut rfl
  -- The comment stands in front of the line break.
  have hle : comment.position ≤ blank.position :=
    List.rel_of_pairwise_cons (List.pairwise_append.1 (pairwise_of_stream h)).2.1 (by simp)
  rw [hplace, hblankPlace] at hle
  obtain ⟨z, hz⟩ := Position.exists_append_of_le ⟨_, hbefore.symm⟩ ⟨_, hsource.symm⟩ hle
  have hne : z ≠ [] := by
    rintro rfl
    rw [hz, List.append_nil] at hsource
    have hsame : k :: m = "/*" ++ (comment.value ++ ("*/" ++ after)) :=
      (List.append_right_inj before).1 (hsource.symm.trans hbefore)
    obtain ⟨rfl, -⟩ : k = '/' ∧ _ := by simpa using hsame
    cases hk
  obtain ⟨zs, hzs, hsplit⟩ := exists_of_map_ok ((hts source m hsource).symm.trans h)
  rw [hz] at hzs
  obtain ⟨more, rfl⟩ := Layout.exists_front_of_place hzs hsplit.symm hplace hne
  obtain ⟨others, hothers⟩ := hbegins
  obtain ⟨zs', -, rfl⟩ := exists_of_map_ok ((hts source' (m ++ others) (by rw [← hothers, hsource]; simp)).symm.trans h')
  exact ⟨more ++ zs', by simp⟩

end

section
variable {i : Indentation} {p : Position} {lineStart : Bool} {text : Text} {rest : List Token} {t : Token}

private theorem scan_nil : scan i p lineStart [] = .ok (i.finish p) := by
  unfold scan
  rw [Lexeme.cut]
  rfl

private theorem kind_ne_outdent_of_last_run {c : Char} {run : Text} (hc : Text.isBreak c = true)
    (hrun : ∀ d ∈ run, isRun d = true) (h : scan i p lineStart (c :: run) = .ok (t :: rest)) : t.kind ≠ .outdent := by
  rw [scan_last_run hc hrun] at h
  have hsplit := Except.ok.inj h
  rw [Indentation.blanks_eq] at hsplit
  obtain hblank | hblank := Indentation.blankKinds_cases (c :: run) <;> rw [hblank] at hsplit
  · rw [← (List.cons.inj hsplit).1]
    simp [Indentation.token]
  · rw [← (List.cons.inj hsplit).1]
    simp [Indentation.token]

private theorem opened_ne_nil_of_enter {width : Nat} (h : .outdent ∈ (i.enter width).2) : i.opened ≠ [] := by
  have henters := i.enters width
  generalize (i.enter width).1 = j at henters
  generalize (i.enter width).2 = kinds at henters h
  cases henters with
  | deeper => simp at h
  | equal => simp at h
  | lower => simp at h
  | back hopened hne => simp [hopened, hne]
  | between hopened hne => simp [hopened, hne]
  | below hopened => exact hopened

private theorem exists_lexeme_of_scan {d : Char} {more : Text}
    (h : scan i p lineStart (d :: more) = .ok (t :: rest)) :
    ∃ x, Lexeme.read lineStart d more = .ok x ∧ x.isBreaks = t.kind.isLayout ∧
      (x.isBreaks = false → ∃ others, x.tokens p = t :: others) := by
  cases hread : Lexeme.read lineStart d more with
  | error stuck =>
    rw [scan, cut_of_stuck hread] at h
    cases h
  | ok x =>
    unfold scan at h
    rw [cut_of_read hread] at h
    obtain ⟨ys, hys, htokens⟩ := exists_of_map_ok h
    obtain ⟨later, -, rfl⟩ := exists_of_map_ok hys
    refine ⟨x, rfl, ?_⟩
    cases hx : x.isBreaks with
    | false =>
      obtain ⟨u, us, hus⟩ := List.exists_cons_of_ne_nil (tokens_ne_nil hx p)
      rw [ofLexemes_of_isBreaks_eq_false hx, hus] at htokens
      obtain ⟨rfl, -⟩ := List.cons.inj htokens
      have hlayout := (isLayout_of_lexeme (Lexeme.read_wellFormed hread) p u (by simp [hus])).1
      exact ⟨hlayout.symm, fun _ => ⟨us, hus⟩⟩
    | true =>
      cases x with
      | breaks run =>
        rw [ofLexemes_breaks] at htokens
        obtain ⟨hne, hlayout⟩ := layout_of_run i run later.isEmpty
        obtain ⟨kind, kinds, hkinds⟩ := List.exists_cons_of_ne_nil hne
        rw [hkinds] at htokens
        obtain ⟨rfl, -⟩ := List.cons.inj htokens
        exact ⟨(hlayout kind (by simp [hkinds])).symm, by simp⟩
      | _ => cases hx

private theorem mark_of_scan {d : Char} {more : Text} {mark : Token} (hmark : mark.kind ∈ listMarks)
    (h : scan i p lineStart (d :: more) = .ok (mark :: rest)) :
    Lexeme.mark? d = some mark.kind ∧ mark.position = p := by
  obtain ⟨x, hread, hlayout, htokens⟩ := exists_lexeme_of_scan h
  rw [isLayout_of_mark hmark] at hlayout
  obtain ⟨others, hothers⟩ := htokens hlayout
  obtain ⟨rfl, rfl, -, -⟩ := @eq_plain_of_mark [] _ _ _ _ hmark hlayout hothers
  exact ⟨(read_of_mark hmark hread).2.1, rfl⟩

private theorem eq_rightBracket {d : Char} (h : Lexeme.mark? d = some .rightBracket) : d = ']' := by
  unfold Lexeme.mark? at h
  grind

private theorem exists_opened_of_turn {run : Text} {outdent t : Token} {zs : List Token}
    (h : turnOf i p run ++ zs = outdent :: t :: rest) (houtdent : outdent.kind = .outdent)
    (ht : t.kind.isLayout = false) : i.opened ≠ [] ∧ zs = t :: rest := by
  obtain ⟨hne, hlayout⟩ := layout_of_run i run false
  rw [turnOf_eq] at h
  obtain ⟨kind, kinds, hkinds⟩ := List.exists_cons_of_ne_nil hne
  rw [hkinds] at h hlayout
  obtain ⟨hfirst, hrest⟩ := List.cons.inj h
  obtain rfl : kind = .outdent := by
    rw [← houtdent, ← hfirst]
    rfl
  cases kinds with
  | cons kind' kinds =>
    obtain ⟨hnext, -⟩ := List.cons.inj hrest
    have hkind := hlayout kind' (by simp)
    rw [← hnext, show (Indentation.token p kind').kind = kind' from rfl, hkind] at ht
    cases ht
  | nil =>
    obtain hblank | hblank := Indentation.blankKinds_cases run <;> rw [hblank] at hkinds
    · have henter : (i.enter (Indentation.width run)).2 = [.outdent] := hkinds
      exact ⟨opened_ne_nil_of_enter (by rw [henter]; simp), hrest⟩
    · cases hkinds

private theorem exists_run_of_outdent {outdent bracket : Token}
    (h : scan i p false text = .ok (outdent :: bracket :: rest)) (houtdent : outdent.kind = .outdent)
    (hbracket : bracket.kind = .rightBracket) :
    ∃ run below, text = run ++ ']' :: below ∧ IsBreaks run ∧ i.opened ≠ [] ∧ bracket.position = p.advance run := by
  cases text with
  | nil =>
    have hmem : bracket ∈ i.finish p := by
      rw [Except.ok.inj (scan_nil.symm.trans h)]
      simp
    obtain ⟨-, hkind | hkind⟩ := position_of_finish hmem <;> rw [hbracket] at hkind <;> cases hkind
  | cons k text =>
    obtain ⟨x, hread, hlayout, -⟩ := exists_lexeme_of_scan h
    rw [houtdent] at hlayout
    have hwhole := eq_append_drop_of_read hread
    obtain ⟨_, rfl, -, -, hend⟩ := eq_breaks_of_read hread hlayout hwhole
    generalize (k :: text).drop _ = more at hwhole hend
    cases Lexeme.read_wellFormed hread with
    | @breaks c run hc hrun =>
      obtain ⟨rfl, rfl⟩ : k = c ∧ text = run ++ more := List.cons.inj hwhole
      cases more with
      | nil =>
        rw [List.append_nil] at h
        exact absurd houtdent (kind_ne_outdent_of_last_run hc hrun h)
      | cons d more =>
        obtain ⟨zs, hzs, hsplit⟩ := exists_of_map_ok ((scans_turn hc hrun (hend d rfl) p ⟨i, false⟩).symm.trans h)
        obtain ⟨hopened, rfl⟩ := exists_opened_of_turn hsplit houtdent (by simp [hbracket, Kind.isLayout])
        obtain ⟨hd, hplace⟩ := mark_of_scan (by simp [listMarks, hbracket]) hzs
        rw [hbracket] at hd
        obtain rfl := eq_rightBracket hd
        exact ⟨k :: run, more, rfl, ⟨k, run, rfl, hc, hrun⟩, hopened, hplace⟩

end
end Token

namespace Layout
open TokenReader
open Token (scan)

section
variable {c : Convention} {h h' : Header} {x x' more more' behind front : List Token}
  {source source' a a' m m' : Text} {levels levels' : Indentation}

/-- The tokens of a file up to the bracket of its last entry, and the header with the parameters bound. -/
inductive Filled (c : Convention) : List Token → Header → Prop
  | entries {front y : List Token} {h : Header} {bound : List Parameter} (hfront : Opens c front h)
      (hy : BindsAll c h.parameters y bound) : Filled c (front ++ y) { h with parameters := bound }

private theorem closes_iff_filled :
    Closes c x h ↔ ∃ y outdent, Filled c y h ∧ outdent.kind = .outdent ∧ x = y ++ [outdent] := by
  constructor
  · rintro ⟨hx, hcommand, hvalue, hgap, hl, hindent, hy, houtdent⟩
    obtain ⟨p, ps, hparameters⟩ := hy.exists_cons
    exact ⟨_, _, .entries (.statement hx (by simp [hparameters]) hcommand hvalue hgap hl hindent) hy, houtdent,
      by simp⟩
  · rintro ⟨_, outdent, ⟨⟨hx, _, hcommand, hvalue, hgap, hl, hindent⟩, hy⟩, houtdent, rfl⟩
    simpa using Closes.binding hx hcommand hvalue hgap hl hindent hy houtdent

private theorem Opens.unique (hx : Opens c x h) (hx' : Opens c x' h') (hsplit : x ++ more = x' ++ more') :
    x = x' ∧ more = more' ∧ h = h' := by
  cases hx with
  | statement hx =>
    cases hx' with
    | statement hx' =>
      rw [List.append_assoc, List.append_assoc] at hsplit
      obtain ⟨rfl, htail, rfl⟩ := hx.unique hx' hsplit
      simp only [List.cons_append, List.nil_append, List.cons.injEq] at htail
      obtain ⟨rfl, rfl, rfl, rfl, rfl⟩ := htail
      exact ⟨rfl, rfl, rfl⟩

private theorem Filled.unique (hx : Filled c x h) (hx' : Filled c x' h') (hsplit : x ++ more = x' ++ more') :
    x = x' ∧ more = more' ∧ h = h' := by
  cases hx with
  | entries hfront hy =>
    cases hx' with
    | entries hfront' hy' =>
      rw [List.append_assoc, List.append_assoc] at hsplit
      obtain ⟨rfl, hrest, rfl⟩ := hfront.unique hfront' hsplit
      obtain ⟨p, ps, hparameters⟩ := hy.exists_cons
      rw [hparameters] at hy hy'
      obtain ⟨rfl, rfl, rfl⟩ := bindsAll_unique hy hy' hrest
      exact ⟨rfl, rfl, rfl⟩

private theorem BindsAll.exists_concat {ps bound : List Parameter} (hx : BindsAll c ps x bound) :
    ∃ y mark, x = y ++ [mark] ∧ mark.kind = .rightBracket := by
  induction hx with
  | single hx =>
    cases hx with
    | @entry _ _ _ _ _ _ _ _ r _ _ _ _ _ _ _ _ _ _ _ _ _ _ _ hr => exact ⟨_, r, rfl, hr⟩
  | cons _ _ _ _ ih =>
    obtain ⟨y, mark, rfl, hmark⟩ := ih
    exact ⟨_, mark, (List.append_assoc _ (_ :: _ :: y) [mark]).symm, hmark⟩

/-- The tokens `x` of a source end with the bracket behind `a`, with `m` behind the bracket. They do not depend
on what stands there, and of them the scanner keeps the open levels only. -/
structure EndsAt (source : Text) (x : List Token) (a m : Text) (levels : Indentation) : Prop where
  source_eq : Text.dropMark source = a ++ ']' :: m
  place : ∃ mark ∈ x.getLast?, mark.position = .behind a
  again : ∀ source' m', Text.dropMark source' = a ++ ']' :: m' → Token.stream source' =
    (scan levels (Position.start.advance (a ++ [']'])) false m').map (x ++ ·)

private theorem EndsAt.elsewhere (hends : EndsAt source x a m levels)
    (hsource : Text.dropMark source' = a ++ ']' :: m') : EndsAt source' x a m' levels :=
  ⟨hsource, hends.place, hends.again⟩

private theorem EndsAt.scan_eq (hends : EndsAt source x a m levels)
    (hstream : Token.stream source = .ok (x ++ behind)) :
    scan levels (Position.start.advance (a ++ [']'])) false m = .ok behind := by
  obtain ⟨_, hscan, hsame⟩ := Token.exists_of_map_ok ((hends.again source m hends.source_eq).symm.trans hstream)
  rwa [(List.append_right_inj x).1 hsame] at hscan

private theorem EndsAt.exists_run {outdent bracket : Token} {rest : List Token} (hends : EndsAt source x a m levels)
    (hstream : Token.stream source = .ok (x ++ outdent :: bracket :: rest)) (houtdent : outdent.kind = .outdent)
    (hbracket : bracket.kind = .rightBracket) : ∃ run below, m = run ++ ']' :: below ∧ IsBreaks run ∧
      levels.opened ≠ [] ∧ bracket.position = .behind (a ++ ']' :: run) := by
  obtain ⟨run, below, rfl, hrun, hopened, hplace⟩ :=
    Token.exists_run_of_outdent (hends.scan_eq hstream) houtdent hbracket
  refine ⟨run, below, rfl, hrun, hopened, ?_⟩
  rw [hplace, ← Position.advance_append, Position.start_advance, List.append_assoc]
  rfl

private theorem EndsAt.eq_nil {outdent : Token} {rest : List Token} {run : Text} (hends : EndsAt source x a m levels)
    (hstream : Token.stream source = .ok (x ++ outdent :: rest)) (houtdent : outdent.kind = .outdent)
    (hrun : IsBreaks run) (hm : m <+: run) : m = [] := by
  cases m with
  | nil => rfl
  | cons k m =>
    obtain ⟨others, rfl⟩ := hm
    obtain ⟨_, _, ⟨⟩, hk, hmore⟩ := hrun
    exact absurd houtdent (Token.kind_ne_outdent_of_last_run hk
      (fun d hd => hmore d (List.mem_append_left _ hd)) (hends.scan_eq hstream))

private theorem EndsAt.of_isPrefix (hends : EndsAt source' x a m levels) (hends' : EndsAt source x a' m' levels')
    (hbegins : Text.dropMark source <+: Text.dropMark source') : EndsAt source x a m' levels := by
  obtain ⟨mark, hmark, hplace⟩ := hends.place
  obtain ⟨mark', hmark', hplace'⟩ := hends'.place
  obtain rfl : mark = mark' := Option.some.inj (hmark.symm.trans hmark')
  obtain rfl : a' = a := by
    rw [hplace', ← Position.start_advance, ← Position.start_advance] at hplace
    exact Position.eq_of_advance_eq (.trans ⟨_, hends'.source_eq.symm⟩ hbegins) ⟨_, hends.source_eq.symm⟩ hplace
  exact hends.elsewhere hends'.source_eq

private theorem Filled.exists_endsAt (hx : Filled c x h) (hstream : Token.stream source = .ok (x ++ behind)) :
    ∃ a m levels, EndsAt source x a m levels := by
  obtain ⟨z, mark, rfl, hmark⟩ : ∃ z mark, x = z ++ [mark] ∧ mark.kind = .rightBracket := by
    cases hx with
    | entries hfront hy =>
      obtain ⟨y, mark, rfl, hmark⟩ := hy.exists_concat
      exact ⟨_, mark, (List.append_assoc _ y [mark]).symm, hmark⟩
  rw [List.append_assoc, List.singleton_append] at hstream
  obtain ⟨a, k, m, others, others', hcut⟩ :=
    Token.exists_cutAt_of_stream hstream (by simp [Token.listMarks, hmark])
  obtain rfl : k = ']' := Token.eq_rightBracket (hcut.kind.trans (congrArg some hmark))
  refine ⟨a, m, ((Token.opening source).behind others).levels, hcut.source_eq, ⟨mark, by simp, hcut.place⟩,
    fun source' m' hsource' => ?_⟩
  rw [hcut.again source' m' hsource']
  simp

/-- The end of the file closes the level of the entries. -/
private theorem Filled.answer_eq (hx : Filled c x h) (hbinds : h.parameters ≠ [])
    (hends : EndsAt source x a [] levels) (hopened : levels.opened ≠ []) : answer c source = .ok h := by
  obtain ⟨l, opened, hlevels⟩ := List.exists_cons_of_ne_nil hopened
  have hstream := hends.again source [] hends.source_eq
  rw [Token.scan_nil, Indentation.finish, hlevels] at hstream
  exact answer_eq_ok_iff.2 ⟨_, hstream, layout_ok_iff.1 ⟨_, (layout_ok_iff_closes hbinds).2
    ⟨_, closes_iff_filled.2 ⟨x, _, hx, rfl, rfl⟩, (List.append_assoc x [_] _).symm⟩⟩⟩

private theorem Declares.eq_of_isPrefix (hx : Declares c x h) (hx' : Declares c x' h')
    (hstream : Token.stream source = .ok (x ++ more)) (hstream' : Token.stream source' = .ok (x' ++ more'))
    (hbegins : Text.dropMark source <+: Text.dropMark source') : h = h' := by
  cases hx with
  | @opening hash path line comment blank _ _ _ _ _ _ hcomment hread hblank _ =>
    have hupto : Token.stream source = .ok ([hash, path, line] ++ comment :: blank :: _) := hstream
    obtain ⟨rest, hrest⟩ := Token.exists_rest_of_comment hupto hcomment hblank hstream' hbegins
    cases hx' with
    | opening _ _ _ _ _ hread' =>
      simp only [List.cons_append, List.nil_append, List.cons.injEq] at hrest
      obtain ⟨rfl, rfl, rfl, rfl, -⟩ := hrest
      exact Except.ok.inj (hread.symm.trans hread')

/-- A source that is accepted and goes on as a file that binds parameters has all of its entries, and nothing
but the end of their level behind them. -/
private theorem Filled.exists_of_isPrefix (hx : Filled c x h) (hstream' : Token.stream source' = .ok (x ++ behind))
    (hok : answer c source = .ok h') (hbegins : Text.dropMark source <+: Text.dropMark source') :
    ∃ outdent rest, Token.stream source = .ok (x ++ outdent :: rest) ∧ outdent.kind = .outdent ∧ h' = h := by
  obtain ⟨tokens, hstream, hconforms⟩ := answer_eq_ok_iff.1 hok
  by_cases hnone : h'.parameters = []
  · exfalso
    cases hconforms with
    | plain hy =>
      cases hx with
      | entries hfront =>
        cases hfront with
        | statement hx' hparameters =>
          simp only [List.append_assoc] at hstream'
          obtain rfl := hy.eq_of_isPrefix hx' hstream hstream' hbegins
          exact hparameters hnone
    | binding _ _ _ _ _ _ hy => exact hy.bound_ne_nil hnone
  · obtain ⟨s, hlayout⟩ := layout_ok_iff.2 hconforms
    obtain ⟨_, hcloses, rfl⟩ := (layout_ok_iff_closes hnone).1 hlayout
    obtain ⟨y, outdent, hy, houtdent, rfl⟩ := closes_iff_filled.1 hcloses
    rw [List.append_assoc, List.singleton_append] at hstream
    obtain ⟨a, m, levels, hends⟩ := hy.exists_endsAt hstream
    obtain ⟨more, hmore⟩ := hbegins
    have hlonger := hends.again source' (m ++ more) (by rw [← hmore, hends.source_eq]; simp)
    obtain ⟨zs, -, hsame⟩ := Token.exists_of_map_ok (hlonger.symm.trans hstream')
    obtain ⟨rfl, -, rfl⟩ := hy.unique hx hsame
    exact ⟨outdent, s, hstream, houtdent, rfl⟩

/-- Of an accepted file that closes its statement with a bracket, no beginning without that bracket is
accepted, but for the one that ends with the last entry: there the end of the file closes the level. -/
theorem answer_truncated {outdent bracket : Token} {rest : List Token}
    (hstream : Token.stream source = .ok (front ++ outdent :: bracket :: rest))
    (hlayout : layout c (front ++ outdent :: bracket :: rest) = .ok h (bracket :: rest))
    (hbinds : h.parameters ≠ []) (hbracket : bracket.kind = .rightBracket) :
    ∃ above run below, source = above ++ ']' :: (run ++ ']' :: below) ∧ IsBreaks run ∧
      bracket.position = .behind (Text.dropMark (above ++ ']' :: run)) ∧
      ∀ text h', text <+: above ++ ']' :: run →
        (answer c text = .ok h' ↔ text = above ++ [']'] ∧ h' = h) := by
  obtain ⟨_, hcloses, hsplit⟩ := (layout_ok_iff_closes hbinds).1 hlayout
  obtain ⟨y, outdent', hfilled, houtdent, rfl⟩ := closes_iff_filled.1 hcloses
  obtain ⟨rfl, rfl⟩ : front = y ∧ outdent = outdent' := by
    have hsame : front ++ [outdent] = y ++ [outdent'] :=
      (List.append_left_inj (bracket :: rest)).1 (by simpa using hsplit)
    simpa using hsame
  obtain ⟨a, m, levels, hends⟩ := hfilled.exists_endsAt hstream
  obtain ⟨run, below, rfl, hrun, hopened, hplace⟩ := hends.exists_run hstream houtdent hbracket
  obtain ⟨start, hstart, hbegin⟩ := Text.exists_mark source
  have hwhole : source = start ++ a ++ ']' :: (run ++ ']' :: below) := by
    rw [List.append_assoc, ← hends.source_eq]
    exact hstart
  have hdrop {text : Text} (htext : text <+: run) :
      Text.dropMark (start ++ a ++ ']' :: text) = a ++ ']' :: text := by
    obtain ⟨others, rfl⟩ := htext
    refine (List.append_right_inj start).1 ?_
    rw [← List.append_assoc]
    exact (hbegin _ (by simp) ⟨others ++ ']' :: below, by rw [hwhole]; simp⟩).symm
  refine ⟨start ++ a, run, below, hwhole, hrun, ?_, fun text h' htext => ⟨fun hok => ?_, ?_⟩⟩
  · rwa [hdrop (List.prefix_refl run)]
  · have hsourced : text <+: source := htext.trans ⟨']' :: below, by rw [hwhole]; simp⟩
    have hbegins := Text.dropMark_isPrefix hsourced
    obtain ⟨outdent', rest', hstream', houtdent', rfl⟩ := hfilled.exists_of_isPrefix hstream hok hbegins
    obtain ⟨_, m, _, hends'⟩ := hfilled.exists_endsAt hstream'
    have hcut := hends.of_isPrefix hends' hbegins
    have htext' : text = start ++ a ++ ']' :: m := by
      rw [List.append_assoc, ← hcut.source_eq]
      refine hbegin text ?_ hsourced
      rintro rfl
      simpa [Text.dropMark] using hcut.source_eq
    have hm : m <+: run := by
      rwa [htext', List.prefix_append_right_inj, List.prefix_cons_inj] at htext
    rw [hcut.eq_nil hstream' houtdent' hrun hm] at htext'
    exact ⟨htext', rfl⟩
  · rintro ⟨rfl, rfl⟩
    exact hfilled.answer_eq hbinds (hends.elsewhere (hdrop List.nil_prefix)) hopened

end

/-- The tokens of a file with one entry, up to the bracket of that entry, and those behind the bracket that
closes its statement. -/
def boundFront : List Token := boundTokens.take 21

def boundRest : List Token := boundTokens.drop 23

def boundOutdent : Token := Indentation.token ⟨16, 23⟩ .outdent

def boundBracket : Token := ⟨.rightBracket, "]", ⟨17, 1⟩⟩

private theorem stream_bound : Token.stream (boundAbove ++ "];\n") =
    .ok (boundFront ++ boundOutdent :: boundBracket :: boundRest) :=
  @Token.stream_of_streamWithin 40 _ _ (by decide +kernel)

private theorem layout_bound : layout .standard (boundFront ++ boundOutdent :: boundBracket :: boundRest) =
    .ok boundHeader (boundBracket :: boundRest) := by cbv

set_option maxRecDepth 4000 in
/-- Cut right behind its entry, this file is still accepted. -/
theorem answer_cut_behind_entry :
    Token.stream (boundAbove ++ "];\n") = .ok (boundFront ++ boundOutdent :: boundBracket :: boundRest) ∧
      layout .standard (boundFront ++ boundOutdent :: boundBracket :: boundRest) =
        .ok boundHeader (boundBracket :: boundRest) ∧
      boundBracket.position = .behind boundAbove ∧ boundAbove.dropLast <+: boundAbove ∧
      answer .standard boundAbove.dropLast = .ok boundHeader := by
  have hstream : Token.stream boundAbove.dropLast =
      .ok ((Token.streamWithin 40 boundAbove.dropLast).getD []) :=
    @Token.stream_of_streamWithin 40 _ _ (by decide +kernel)
  have hvalidate : validate .standard ((Token.streamWithin 40 boundAbove.dropLast).getD []) =
      .ok boundHeader := by cbv
  refine ⟨stream_bound, layout_bound, by decide +kernel, List.dropLast_prefix _, ?_⟩
  unfold answer
  rw [hstream]
  exact hvalidate

theorem answer_truncated_boundAbove : ∃ above run below,
    boundAbove ++ "];\n" = above ++ ']' :: (run ++ ']' :: below) ∧ IsBreaks run ∧
      ∀ text h, text <+: above ++ ']' :: run →
        (answer .standard text = .ok h ↔ text = above ++ [']'] ∧ h = boundHeader) := by
  obtain ⟨above, run, below, hsource, hrun, -, hcuts⟩ :=
    answer_truncated stream_bound layout_bound (by simp [boundHeader]) rfl
  exact ⟨above, run, below, hsource, hrun, hcuts⟩

end Layout
end SqfLayout
