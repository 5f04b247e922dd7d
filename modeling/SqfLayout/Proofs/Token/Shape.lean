import SqfLayout.Proofs.Token.Levels

/-! What the tokens of a source look like, whatever it holds: which tokens stand next to each other, how
line breaks show, and that every level that is opened is closed. -/
namespace SqfLayout
open Token (Kind)

namespace Indentation

/-- A run with an empty line in it: a line break behind another one. A carriage return and the line feed
behind it are one. -/
def HoldsEmptyLine (run : Text) : Prop :=
  ∃ a b, run = a ++ b ∧ (∃ c ∈ a, Text.isBreak c = true) ∧ (∃ c ∈ b, Text.isBreak c = true) ∧
    ¬ (a.getLast? = some '\r' ∧ b.head? = some '\n')

private theorem countBreaks_pair (t : Text) : countBreaks ('\r' :: '\n' :: t) = countBreaks t + 1 := by
  rw [countBreaks, if_pos ⟨rfl, rfl⟩]

/-- Where no pair of a carriage return and a line feed is torn apart, the breaks of two parts add up. -/
private theorem countBreaks_append {a b : Text} (h : ¬ (a.getLast? = some '\r' ∧ b.head? = some '\n')) :
    countBreaks (a ++ b) = countBreaks a + countBreaks b := by
  fun_induction countBreaks a with
  | case1 => simp
  | case2 c hc =>
    have hcons := countBreaks_cons (t := b) (by simpa using h)
    rw [if_pos hc, Nat.add_comm] at hcons
    exact hcons
  | case3 c hc =>
    have hcons := countBreaks_cons (t := b) (by simpa using h)
    rw [if_neg hc, Nat.add_comm] at hcons
    exact hcons
  | case4 c d rest hpair ih =>
    obtain ⟨rfl, rfl⟩ := hpair
    have hrest : ¬ (rest.getLast? = some '\r' ∧ b.head? = some '\n') := by
      cases rest with
      | nil => simp
      | cons e rest => simpa using h
    rw [List.cons_append, List.cons_append, countBreaks_pair, ih hrest]
    omega
  | case5 c d rest hpair ih =>
    have ih := ih (by simpa using h)
    rw [List.cons_append, countBreaks_cons (by simpa using hpair), ih]
    omega

theorem countBreaks_pos_iff {t : Text} : 0 < countBreaks t ↔ ∃ c ∈ t, Text.isBreak c = true := by
  fun_induction countBreaks t with
  | case1 => simp
  | case2 c hc => simp [hc]
  | case3 c hc => simp [hc]
  | case4 c d rest hpair ih => simp [hpair.1, Text.isBreak]
  | case5 c d rest hpair ih =>
    rw [List.exists_mem_cons_iff, ← ih]
    split <;> simp_all

theorem one_lt_countBreaks_iff {run : Text} : 1 < countBreaks run ↔ HoldsEmptyLine run := by
  constructor
  · intro h
    fun_induction countBreaks run with
    | case1 | case2 | case3 => omega
    | case4 c d rest hpair ih =>
      obtain ⟨rfl, rfl⟩ := hpair
      have hrest : 0 < countBreaks rest := by omega
      exact ⟨['\r', '\n'], rest, rfl, by simp [Text.isBreak], countBreaks_pos_iff.1 hrest, by simp⟩
    | case5 c d rest hpair ih =>
      split at h
      · rename_i hc
        have hrest : 0 < countBreaks (d :: rest) := by omega
        exact ⟨[c], d :: rest, rfl, by simp [hc], countBreaks_pos_iff.1 hrest, by simpa using hpair⟩
      · obtain ⟨a, b, hrun, ⟨k, hk, hbreak⟩, hb, hapart⟩ := ih h
        obtain ⟨e, a, rfl⟩ := List.exists_cons_of_ne_nil (List.ne_nil_of_mem hk)
        refine ⟨c :: e :: a, b, ?_, ⟨k, List.mem_cons_of_mem c hk, hbreak⟩, hb, by simpa using hapart⟩
        rw [List.cons_append, ← hrun]
  · rintro ⟨a, b, rfl, ha, hb, hapart⟩
    have ha := countBreaks_pos_iff.2 ha
    have hb := countBreaks_pos_iff.2 hb
    rw [countBreaks_append hapart]
    omega

/-- Kinds of token that open and close levels, of which `n` are open in front of them and `m` behind.
No level is closed that is not open. -/
inductive Leads : Nat → List Kind → Nat → Prop
  | nil {n : Nat} : Leads n [] n
  | indent {n m : Nat} {kinds : List Kind} (h : Leads (n + 1) kinds m) : Leads n (.indent :: kinds) m
  | outdent {n m : Nat} {kinds : List Kind} (h : Leads n kinds m) : Leads (n + 1) (.outdent :: kinds) m
  | other {n m : Nat} {kind : Kind} {kinds : List Kind} (hindent : kind ≠ .indent)
      (houtdent : kind ≠ .outdent) (h : Leads n kinds m) : Leads n (kind :: kinds) m

section
variable {n m k : Nat} {a b : List Kind} {i j : Indentation}

private theorem Leads.append (ha : Leads n a m) (hb : Leads m b k) : Leads n (a ++ b) k := by
  induction ha with
  | nil => exact hb
  | indent _ ih => exact .indent (ih hb)
  | outdent _ ih => exact .outdent (ih hb)
  | other hindent houtdent _ ih => exact .other hindent houtdent (ih hb)

private theorem Leads.exists_front (h : Leads n (a ++ b) m) : ∃ k, Leads n a k := by
  induction a generalizing n with
  | nil => exact ⟨n, .nil⟩
  | cons kind a ih =>
    cases h with
    | indent h =>
      obtain ⟨k, hk⟩ := ih h
      exact ⟨k, .indent hk⟩
    | outdent h =>
      obtain ⟨k, hk⟩ := ih h
      exact ⟨k, .outdent hk⟩
    | other hindent houtdent h =>
      obtain ⟨k, hk⟩ := ih h
      exact ⟨k, .other hindent houtdent hk⟩

private theorem Leads.count_eq (h : Leads n a m) : m + a.count .outdent = n + a.count .indent := by
  induction h with
  | nil => rfl
  | indent _ ih =>
    rw [List.count_cons_self, List.count_cons_of_ne (by simp)]
    omega
  | outdent _ ih =>
    rw [List.count_cons_self, List.count_cons_of_ne (by simp)]
    omega
  | other hindent houtdent _ ih => rwa [List.count_cons_of_ne houtdent, List.count_cons_of_ne hindent]

private theorem leads_of_flat (h : ∀ kind ∈ a, kind ≠ .indent ∧ kind ≠ .outdent) : Leads n a n := by
  induction a with
  | nil => exact .nil
  | cons kind a ih =>
    obtain ⟨⟨hindent, houtdent⟩, h⟩ := List.forall_mem_cons.1 h
    exact .other hindent houtdent (ih h)

private theorem leads_outdents (n m : Nat) : Leads (m + n) (List.replicate n .outdent) m := by
  induction n with
  | zero => exact .nil
  | succ n ih => exact .outdent ih

private theorem Enters.leads {width : Nat} {kinds : List Kind} (h : Enters width i j kinds) :
    Leads i.opened.length kinds j.opened.length := by
  have hclose {closed left : List Nat} (hopened : i.opened = closed ++ left) :
      Leads i.opened.length (List.replicate closed.length .outdent) left.length := by
    rw [hopened, List.length_append, Nat.add_comm]
    exact leads_outdents closed.length left.length
  cases h with
  | deeper => exact .indent .nil
  | equal => exact leads_of_flat (by simp)
  | lower hopened =>
    rw [hopened]
    exact leads_of_flat (by simp)
  | back hopened => exact hclose hopened
  | between hopened => exact (hclose hopened).append (.indent .nil)
  | below => exact hclose (List.append_nil _).symm

private theorem leads_afterRun (i : Indentation) (run : Text) (last : Bool) : Leads i.opened.length
    (blankKinds run ++ (i.afterRun run last).2) (i.afterRun run last).1.opened.length := by
  have hblank : Leads i.opened.length (blankKinds run) i.opened.length := by
    refine leads_of_flat ?_
    unfold blankKinds
    split <;> simp
  refine hblank.append ?_
  cases last with
  | true => exact leads_of_flat (by simp [afterRun])
  | false => exact (i.enters (width run)).leads

private theorem kinds_finish (i : Indentation) (p : Position) :
    (i.finish p).map Token.kind = List.replicate i.opened.length .outdent ++ [.eos] := by
  simp [finish, token, Token.eos, List.map_const']

private theorem leads_finish (i : Indentation) (p : Position) :
    Leads i.opened.length ((i.finish p).map Token.kind) 0 := by
  rw [i.kinds_finish]
  refine Leads.append ?_ (leads_of_flat (by simp))
  simpa using leads_outdents i.opened.length 0

end
end Indentation

namespace Token
open Indentation (Leads Turn HoldsEmptyLine)

/-- Where a token of the kind may stand: a directive behind its `#` only, where nothing else stands, and
a space behind a token that is neither layout nor a space. -/
structure MayFollow (before : Option Kind) (kind : Kind) : Prop where
  directive_iff : kind.isDirective ↔ before = some .preprocessorStart
  space : kind = .space → ∃ k ∈ before, k.isLayout = false ∧ k ≠ .space

/-- Kinds of token that may stand one behind the other, the first behind `before`. -/
inductive Orderly : Option Kind → List Kind → Prop
  | nil {before : Option Kind} (hbefore : before ≠ some .preprocessorStart) : Orderly before []
  | cons {before : Option Kind} {kind : Kind} {kinds : List Kind} (hkind : MayFollow before kind)
      (h : Orderly (some kind) kinds) : Orderly before (kind :: kinds)

/-- A kind that has no part in directives, gaps and layout. -/
def Kind.IsPlain (kind : Kind) : Prop :=
  kind ≠ .preprocessorStart ∧ ¬ kind.isDirective ∧ kind ≠ .space ∧ kind.isLayout = false

/-- What a lexeme that breaks no line gives in front of `more`. -/
inductive Gives (c : Char) (more : Text) : List Kind → Prop
  | directive {kind : Kind} (hkind : kind.isDirective) : Gives c more [.preprocessorStart, kind]
  | space (hc : Text.isBlank c = true) (hmore : ∀ d ∈ more.head?, Text.isBlank d = false) :
      Gives c more [.space]
  | plain {kind : Kind} (hkind : kind.IsPlain) : Gives c more [kind]

section
variable {before : Option Kind} {kind : Kind} {kinds : List Kind} {c : Char} {rest more : Text}
  {x : Lexeme}

private theorem isPlain_of_mark (h : Lexeme.mark? c = some kind) : kind.IsPlain := by
  unfold Lexeme.mark? at h
  repeat' split at h
  all_goals first
    | cases h
      simp [Kind.IsPlain, Kind.isDirective, Kind.isLayout]
    | cases h

private theorem plain_of_isLayout (h : kind.isLayout = true) :
    ¬ kind.isDirective ∧ kind ≠ .space ∧ kind ≠ .preprocessorStart := by
  unfold Kind.isDirective
  refine ⟨?_, ?_, ?_⟩
  · rintro (rfl | rfl) <;> cases h
  · rintro rfl
    cases h
  · rintro rfl
    cases h

private theorem gives_of_read {lineStart : Bool} (h : Lexeme.read lineStart c rest = .ok x)
    (hx : x.isBreaks = false) (hwhole : c :: rest = x.text ++ more) (p : Position) :
    Gives c more ((x.tokens p).map Token.kind) := by
  cases Lexeme.reads_of_read h with
  | breaks => cases hx
  | space hc => exact .space hc (Lexeme.head?_eq_false_of_takeWhile hwhole)
  | directive _ hread =>
    obtain ⟨_, _, _, rfl⟩ | ⟨_, rfl⟩ := Lexeme.readDirective_cases hread
    · exact .directive (.inl rfl)
    · exact .directive (.inr rfl)
  | mark hkind => exact .plain (isPlain_of_mark hkind)
  | blockComment | lineComment | string | number | command | operator =>
    exact .plain (by simp [Kind.IsPlain, Kind.isDirective, Kind.isLayout])

private theorem Orderly.plain (hbefore : before ≠ some .preprocessorStart) (hdirective : ¬ kind.isDirective)
    (hspace : kind ≠ .space) (h : Orderly (some kind) kinds) : Orderly before (kind :: kinds) :=
  .cons ⟨⟨fun hkind => absurd hkind hdirective, fun hstart => absurd hstart hbefore⟩,
    fun hkind => absurd hkind hspace⟩ h

/-- Layout may stand anywhere but between a directive and its `#`. -/
private theorem Orderly.layout {layout : List Kind} (hne : layout ≠ [])
    (hlayout : ∀ kind ∈ layout, kind.isLayout = true) (hbefore : before ≠ some .preprocessorStart)
    (h : ∀ kind : Kind, kind.isLayout = true → Orderly (some kind) kinds) :
    Orderly before (layout ++ kinds) := by
  induction layout generalizing before with
  | nil => exact absurd rfl hne
  | cons kind layout ih =>
    obtain ⟨hkind, hlayout⟩ := List.forall_mem_cons.1 hlayout
    have hplain := plain_of_isLayout hkind
    refine .plain hbefore hplain.1 hplain.2.1 ?_
    cases layout with
    | nil => exact h kind hkind
    | cons kind' layout => exact ih (by simp) hlayout (by simpa using hplain.2.2)

private theorem orderly_finish (hbefore : before ≠ some .preprocessorStart) (i : Indentation) (p : Position) :
    Orderly before ((i.finish p).map Token.kind) := by
  have heos {before : Option Kind} (hbefore : before ≠ some .preprocessorStart) :
      Orderly before [.eos] := .plain hbefore (by simp [Kind.isDirective]) (by simp) (.nil (by simp))
  rw [i.kinds_finish]
  by_cases hopened : i.opened = []
  · simpa [hopened] using heos hbefore
  · refine .layout (by simpa using hopened) ?_ hbefore fun kind hkind => heos ?_
    · intro kind hkind
      rw [List.eq_of_mem_replicate hkind]
      rfl
    · rintro ⟨⟩
      cases hkind

/-- A text may go on behind a token, as its first token: where the text starts with a blank, a space
may stand there. -/
structure Ready (before : Option Kind) (text : Text) : Prop where
  ne_start : before ≠ some .preprocessorStart
  blank : ∀ c ∈ text.head?, Text.isBlank c = true → ∃ k ∈ before, k.isLayout = false ∧ k ≠ .space

private theorem orderly_of_cut {p : Position} {lineStart : Bool} {text : Text} {ys : List (Position × Lexeme)}
    (h : Lexeme.cut p lineStart text = .ok ys) (hready : Ready before text) (i : Indentation)
    (final : Position) : Orderly before ((ofLexemes i final ys).map Token.kind) := by
  fun_induction Lexeme.cut p lineStart text generalizing before i ys with
  | case1 =>
    cases h
    exact orderly_finish hready.ne_start i final
  | case2 => cases h
  | case3 => cases h
  | case4 p lineStart c rest x hread others hcut ih =>
    cases h
    have hwhole := eq_append_drop_of_read hread
    generalize (c :: rest).drop x.text.length = more at *
    cases hx : x.isBreaks with
    | true =>
      obtain ⟨run, rfl, -, -, hend⟩ := eq_breaks_of_read hread hx hwhole
      obtain ⟨hne, hlayout⟩ := layout_of_run i run others.isEmpty
      rw [ofLexemes_breaks, List.map_append, List.map_map]
      refine .layout (by simpa using hne) ?_ hready.ne_start fun kind hkind => ih hcut ⟨?_, ?_⟩ _
      · simpa [Indentation.token] using hlayout
      · rintro ⟨⟩
        cases hkind
      · intro d hd hblank
        have := hend d hd
        simp [Lexeme.isRun, hblank] at this
    | false =>
      rw [ofLexemes_of_isBreaks_eq_false hx, List.map_append]
      have hgives := gives_of_read hread hx hwhole p
      generalize (x.tokens p).map Token.kind = kinds at hgives ⊢
      cases hgives with
      | @directive kind hkind =>
        obtain ⟨hlayout, hspace, hstart⟩ : kind.isLayout = false ∧ kind ≠ .space ∧ kind ≠ .preprocessorStart := by
          obtain rfl | rfl := hkind <;> simp [Kind.isLayout]
        refine .plain hready.ne_start (by simp [Kind.isDirective]) (by simp) (.cons ?_ ?_)
        · exact ⟨⟨fun _ => rfl, fun _ => hkind⟩, fun h => absurd h hspace⟩
        · exact ih hcut ⟨by simpa using hstart, fun _ _ _ => ⟨kind, rfl, hlayout, hspace⟩⟩ i
      | space hc hmore =>
        refine .cons ⟨?_, fun _ => hready.blank c rfl hc⟩ (ih hcut ⟨by simp, ?_⟩ i)
        · exact ⟨fun h => by simp [Kind.isDirective] at h, fun h => absurd h hready.ne_start⟩
        · intro d hd hblank
          have := hmore d hd
          simp [hblank] at this
      | @plain kind hkind =>
        obtain ⟨hstart, hdirective, hspace, hlayout⟩ := hkind
        refine .plain hready.ne_start hdirective hspace (ih hcut ⟨by simpa using hstart, ?_⟩ i)
        exact fun _ _ _ => ⟨kind, rfl, hlayout, hspace⟩

private theorem Orderly.mayFollow (h : Orderly before kinds) {front back : List Kind}
    (hkinds : kinds = front ++ kind :: back) :
    MayFollow (front.getLast?.or before) kind ∧
      (kind = .preprocessorStart → ∃ next ∈ back.head?, next.isDirective) := by
  induction h generalizing front with
  | nil => simp at hkinds
  | @cons before first kinds hfirst hrest ih =>
    cases front with
    | nil =>
      cases hkinds
      refine ⟨hfirst, ?_⟩
      rintro rfl
      cases hrest with
      | nil hbefore => exact absurd rfl hbefore
      | cons hnext => exact ⟨_, rfl, hnext.directive_iff.2 rfl⟩
    | cons first' front =>
      obtain ⟨rfl, htail⟩ := List.cons.inj hkinds
      obtain ⟨hmay, hnext⟩ := ih htail
      refine ⟨?_, hnext⟩
      rw [List.getLast?_cons]
      cases hlast : front.getLast? <;> simpa [hlast] using hmay

private theorem Orderly.mayFollow_of_split {tokens front back : List Token} {t : Token}
    (h : Orderly none (tokens.map Token.kind)) (htokens : tokens = front ++ t :: back) :
    MayFollow (front.getLast?.map Token.kind) t.kind ∧
      (t.kind = .preprocessorStart → ∃ next ∈ back.head?.map Token.kind, next.isDirective) := by
  have hkinds : tokens.map Token.kind = front.map Token.kind ++ t.kind :: back.map Token.kind := by
    simp [htokens]
  simpa using h.mayFollow hkinds

end

/-- What holds of the tokens of any source. -/
structure WellShaped (tokens : List Token) : Prop where
  eos_last : ∃ front last, tokens = front ++ [last] ∧ last.kind = .eos ∧ ∀ t ∈ front, t.kind ≠ .eos
  /-- No level is closed that is not open. -/
  outdents_le : ∀ front, front <+: tokens →
    (front.map Token.kind).count .outdent ≤ (front.map Token.kind).count .indent
  outdents_eq : (tokens.map Token.kind).count .outdent = (tokens.map Token.kind).count .indent
  /-- A `#` is followed by its directive. -/
  directive_follows : ∀ front t back, tokens = front ++ t :: back → t.kind = .preprocessorStart →
    ∃ u ∈ back.head?, u.kind.isDirective
  follows_start : ∀ front t back, tokens = front ++ t :: back → t.kind.isDirective →
    ∃ s ∈ front.getLast?, s.kind = .preprocessorStart
  space_follows : ∀ front t back, tokens = front ++ t :: back → t.kind = .space →
    ∃ s ∈ front.getLast?, s.kind.isLayout = false ∧ s.kind ≠ .space

/-- The kinds of token of a run of line breaks: a blank for an empty line, and one turn of the levels.
At the end of a source no level turns. -/
structure RunShaped (run : Text) (last : Bool) (blank kinds : List Kind) : Prop where
  blank_eq : HoldsEmptyLine run ∧ blank = [.blank] ∨ ¬ HoldsEmptyLine run ∧ blank = []
  turn : Turn kinds
  eq_newline : last = true → kinds = [.newline]

section
variable {i j : Indentation} {xs : List Piece}

private theorem runShaped_afterRun (i : Indentation) (run : Text) (last : Bool) :
    RunShaped run last (Indentation.blankKinds run) (i.afterRun run last).2 := by
  refine ⟨?_, i.turn_afterRun run last, ?_⟩
  · unfold Indentation.blankKinds
    by_cases hempty : 1 < Indentation.countBreaks run
    · exact .inl ⟨Indentation.one_lt_countBreaks_iff.1 hempty, if_pos hempty⟩
    · exact .inr ⟨hempty ∘ Indentation.one_lt_countBreaks_iff.2, if_neg hempty⟩
  · rintro rfl
    rfl

private theorem Runs.leads (h : Runs i xs j) :
    Leads i.opened.length ((tokensOf xs).map Token.kind) j.opened.length := by
  induction h with
  | nil => exact .nil
  | @tokens i j x xs _ hx _ ih =>
    have hflat : ∀ kind ∈ x.tokens.map Token.kind, kind ≠ .indent ∧ kind ≠ .outdent := by
      refine List.forall_mem_map.2 fun t ht => ?_
      constructor
      all_goals
        intro hkind
        simpa [hkind, Kind.isLayout] using (hx t ht).1
    have happend := (Indentation.leads_of_flat hflat).append ih
    rwa [← List.map_append] at happend
  | @run i j x xs hx _ ih =>
    have hrun := i.leads_afterRun x.text xs.isEmpty
    rw [← hx] at hrun
    have happend := hrun.append ih
    rwa [← List.map_append] at happend

private theorem Runs.ne_eos (h : Runs i xs j) : ∀ t ∈ tokensOf xs, t.kind ≠ .eos := by
  induction h with
  | nil => simp [tokensOf]
  | tokens _ hx _ ih => exact List.forall_mem_append.2 ⟨fun t ht => (hx t ht).2, ih⟩
  | @run i j x xs hx _ ih =>
    refine List.forall_mem_append.2 ⟨fun t ht heos => ?_, ih⟩
    have hlayout := isLayout_of_run hx t ht
    simp [heos, Kind.isLayout] at hlayout

end

private theorem ready_first (text : Text) : Ready none (text.dropWhile Text.isBlank) := by
  refine ⟨by simp, fun c hc hblank => ?_⟩
  exact absurd hblank (Bool.eq_false_iff.1 (Lexeme.head?_dropWhile_eq_false Text.isBlank text c hc))

private theorem orderly_of_stream {source : Text} {tokens : List Token} (h : stream source = .ok tokens) :
    Orderly none (tokens.map Token.kind) := by
  obtain ⟨ys, hcut, rfl⟩ := exists_cut_of_stream h
  exact orderly_of_cut hcut (ready_first _) _ _

private theorem wellShaped_of_stream {source : Text} {tokens : List Token} (h : stream source = .ok tokens) :
    WellShaped tokens := by
  obtain ⟨xs, j, htokens, hruns, -⟩ := exists_runs_of_stream h
  have horderly := orderly_of_stream h
  have hleads : Leads 0 (tokens.map Token.kind) 0 := by
    rw [htokens, List.map_append]
    exact hruns.leads.append (j.leads_finish _)
  refine ⟨?_, ?_, ?_, ?_, ?_, ?_⟩
  · rw [htokens, Indentation.finish, ← List.append_assoc]
    refine ⟨_, _, rfl, rfl, List.forall_mem_append.2 ⟨hruns.ne_eos, ?_⟩⟩
    simp [Indentation.token]
  · rintro front ⟨back, hback⟩
    rw [← hback, List.map_append] at hleads
    obtain ⟨k, hk⟩ := hleads.exists_front
    have := hk.count_eq
    omega
  · simpa using hleads.count_eq
  · intro front t back hsplit hstart
    obtain ⟨next, hnext, hdirective⟩ := (horderly.mayFollow_of_split hsplit).2 hstart
    obtain ⟨u, hu, rfl⟩ : ∃ u ∈ back.head?, u.kind = next := by simpa using hnext
    exact ⟨u, hu, hdirective⟩
  · intro front t back hsplit hdirective
    have hstart := (horderly.mayFollow_of_split hsplit).1.directive_iff.1 hdirective
    simpa using hstart
  · intro front t back hsplit hspace
    obtain ⟨k, hk, hapart⟩ := (horderly.mayFollow_of_split hsplit).1.space hspace
    obtain ⟨s, hs, rfl⟩ : ∃ s ∈ front.getLast?, s.kind = k := by simpa using hk
    exact ⟨s, hs, hapart⟩

end Token
end SqfLayout
