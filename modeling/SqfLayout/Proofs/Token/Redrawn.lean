import SqfLayout.Proofs.Expression.Reflowed
import SqfLayout.Proofs.Token.Splicing

/-! The tokens of lexemes in front of which other levels are open. The words stay, and each line goes to
the indentation that it goes to; but which tokens take it there depends on the line before. -/
namespace SqfLayout
namespace Token
open Indentation (Agrees width token)

/-- What becomes of the first line, as told by its first token. -/
structure Outcome where
  /-- A new line on its level stays one. -/
  stays : Token → Prop
  /-- A line that closed a level closes one. -/
  closes : Token → Prop
  /-- The lines behind it stay or close as they did. -/
  settles : Token → Prop

/-- All lines stay or close as they did. -/
def Outcome.kept : Outcome := ⟨fun _ => True, fun _ => True, fun _ => True⟩

/-- The same words with other tokens for the lines. -/
inductive Redrawn : Outcome → List Token → List Token → Prop
  | word {o : Outcome} {t t' : Token} {x x' : List Token} (ht : t.kind.isLayout = false)
      (heos : t.kind ≠ .eos) (hkind : t'.kind = t.kind) (hvalue : t'.value = t.value)
      (hx : Redrawn o x x') : Redrawn o (t :: x) (t' :: x')
  | line {o : Outcome} {t u : Token} {group group' x x' : List Token}
      (hgroup : ∀ v ∈ t :: group, v.kind.isLayout = true) (hgroup' : ∀ v ∈ u :: group', v.kind.isLayout = true)
      (hnewline : t.kind = .newline → group = [] → (u.kind = .newline ∧ group' = [] ↔ o.stays t))
      (houtdent : t.kind = .outdent → (u.kind = .outdent ↔ o.closes t))
      (hx : o.settles t → Redrawn .kept x x') : Redrawn o (t :: group ++ x) (u :: group' ++ x')
  | final {o : Outcome} {t t' : Token} {group group' : List Token}
      (hgroup : ∀ v ∈ group, v.kind.isLayout = true) (hgroup' : ∀ v ∈ group', v.kind.isLayout = true)
      (houtdent : ∀ v ∈ group.head?, v.kind = .outdent → ((∃ u ∈ group'.head?, u.kind = .outdent) ↔ o.closes v))
      (ht : t.kind = .eos) (ht' : t'.kind = .eos) : Redrawn o (group ++ [t]) (group' ++ [t'])

section
variable {o : Outcome} {x x' y z : List Token} {t : Token}

private theorem Redrawn.of_words {l : Lexeme} (hl : l.WellFormed) (hbreaks : l.isBreaks = false) (p p' : Position)
    (h : Redrawn o x x') : Redrawn o (l.tokens p ++ x) (l.tokens p' ++ x') := by
  have hlayout := isLayout_of_lexeme hl p
  cases l with
  | breaks => cases hbreaks
  | inclusion | directive => exact .word rfl (by simp) rfl rfl (.word rfl (by simp) rfl rfl h)
  | blockComment | string => exact .word rfl (by simp) rfl rfl h
  | plain kind text =>
    obtain ⟨hkind, heos⟩ := hlayout _ List.mem_cons_self
    exact .word hkind heos rfl rfl h

private theorem Redrawn.of_line {kinds kinds' : List Kind} {p p' : Position} (hne : kinds ≠ []) (hne' : kinds' ≠ [])
    (hkinds : ∀ kind ∈ kinds, kind.isLayout = true) (hkinds' : ∀ kind ∈ kinds', kind.isLayout = true)
    (hnewline : kinds = [.newline] → (kinds' = [.newline] ↔ o.stays (token p .newline)))
    (houtdent : kinds.head? = some .outdent → (kinds'.head? = some .outdent ↔ o.closes (token p .outdent)))
    (h : ∀ kind, o.settles (token p kind) → Redrawn .kept x x') :
    Redrawn o (kinds.map (token p) ++ x) (kinds'.map (token p') ++ x') := by
  obtain ⟨kind, kinds, rfl⟩ := List.exists_cons_of_ne_nil hne
  obtain ⟨kind', kinds', rfl⟩ := List.exists_cons_of_ne_nil hne'
  have hall {p : Position} {kinds : List Kind} (h : ∀ kind ∈ kinds, kind.isLayout = true) :
      ∀ v ∈ kinds.map (token p), v.kind.isLayout = true := List.forall_mem_map.2 h
  refine .line (hall hkinds) (hall hkinds') ?_ ?_ (h kind)
  · intro hkind hgroup
    obtain rfl : kind = .newline := hkind
    obtain rfl : kinds = [] := List.map_eq_nil_iff.1 hgroup
    rw [← hnewline rfl]
    simp [token]
  · intro hkind
    obtain rfl : kind = .outdent := hkind
    rw [← houtdent rfl]
    simp [token]

theorem redrawn_finish {i j : Indentation} {front front' : List Token} {final : Position} (final' : Position)
    (hfront : ∀ v ∈ front, v.kind.isLayout = true) (hfront' : ∀ v ∈ front', v.kind.isLayout = true)
    (hhead : front ≠ [] → ∀ v ∈ front.head?, v.kind ≠ .outdent) (hsame : front = [] ↔ front' = [])
    (hfinal : i.opened ≠ [] → (j.opened ≠ [] ↔ o.closes (token final .outdent))) :
    Redrawn o (front ++ i.finish final) (front' ++ j.finish final') := by
  have houtdents (i : Indentation) (p : Position) :
      ∀ v ∈ i.opened.map fun _ => token p .outdent, v.kind.isLayout = true :=
    List.forall_mem_map.2 fun _ _ => rfl
  unfold Indentation.finish
  rw [← List.append_assoc, ← List.append_assoc]
  refine .final (List.forall_mem_append.2 ⟨hfront, houtdents i final⟩)
    (List.forall_mem_append.2 ⟨hfront', houtdents j final'⟩) ?_ rfl rfl
  intro v hv hkind
  cases front with
  | cons t front => exact absurd hkind (hhead (by simp) v hv)
  | nil =>
    obtain rfl : front' = [] := hsame.1 rfl
    rw [List.nil_append, List.head?_map] at hv
    obtain ⟨l, hl, rfl⟩ := Option.map_eq_some_iff.1 hv
    rw [← hfinal (fun hnil => by simp [hnil] at hl)]
    cases j.opened <;> simp [token]

end

/-- The outcome tells how the states `i` and `j` differ in what a line indented by `n` does to them. -/
structure Outcome.Tells (o : Outcome) (i j : Indentation) (p : Position) (n : Nat) : Prop where
  stays : (i.enter n).2 = [.newline] → ((j.enter n).2 = [.newline] ↔ o.stays (token p .newline))
  closes : (i.enter n).2.head? = some .outdent →
    ((j.enter n).2.head? = some .outdent ↔ o.closes (token p .outdent))
  settles : ∀ kind, o.settles (token p kind) → (i.enter n).1.Agrees (j.enter n).1

theorem tells_kept {i j : Indentation} (h : i.Agrees j) (p : Position) (n : Nat) : Outcome.kept.Tells i j p n :=
  ⟨fun hi => iff_of_true ((h.eq_newline_iff n).2 hi) trivial,
    fun hi => iff_of_true ((h.head?_eq_outdent_iff n).2 hi) trivial, fun _ _ => h.enter n⟩

theorem redrawn_ofLexemes {o : Outcome} {i j : Indentation} {ys ys' : List (Position × Lexeme)}
    (final final' : Position) (hys : ys'.map Prod.snd = ys.map Prod.snd) (hwell : ∀ y ∈ ys, y.2.WellFormed)
    (hline : ∀ front q run others, ys = front ++ (q, .breaks run) :: others → others ≠ [] →
      o.Tells i j q (width run))
    (hfinal : i.opened ≠ [] → (j.opened ≠ [] ↔ o.closes (token final .outdent))) :
    Redrawn o (ofLexemes i final ys) (ofLexemes j final' ys') := by
  induction ys generalizing i j ys' o with
  | nil =>
    obtain rfl : ys' = [] := List.map_eq_nil_iff.1 hys
    show Redrawn o ([] ++ i.finish final) ([] ++ j.finish final')
    exact redrawn_finish final' (by simp) (by simp) (by simp) Iff.rfl hfinal
  | cons y ys ih =>
    obtain ⟨q, l⟩ := y
    obtain ⟨⟨q', l'⟩, others', rfl, rfl, hothers⟩ := List.map_eq_cons_iff.1 hys
    obtain ⟨hl, hwell'⟩ := List.forall_mem_cons.1 hwell
    cases hbreaks : l'.isBreaks with
    | false =>
      rw [ofLexemes_of_isBreaks_eq_false hbreaks, ofLexemes_of_isBreaks_eq_false hbreaks]
      refine .of_words hl hbreaks q q' (ih hothers hwell' ?_ hfinal)
      exact fun front q' run others h => hline ((q, l') :: front) q' run others (by rw [h]; rfl)
    | true =>
      cases l' with
      | breaks run =>
        have hempty : others'.isEmpty = ys.isEmpty := by
          rw [← List.isEmpty_map, hothers, List.isEmpty_map]
        rw [ofLexemes_breaks, ofLexemes_breaks, hempty]
        obtain ⟨hne, hkinds⟩ := layout_of_run i run ys.isEmpty
        obtain ⟨hne', hkinds'⟩ := layout_of_run j run ys.isEmpty
        cases hlast : ys.isEmpty with
        | true =>
          obtain rfl := List.isEmpty_iff.1 hlast
          obtain rfl : others' = [] := List.isEmpty_iff.1 (hempty.trans hlast)
          rw [hlast] at hne hkinds hne' hkinds'
          refine redrawn_finish final' (List.forall_mem_map.2 hkinds) (List.forall_mem_map.2 hkinds') ?_ ?_ hfinal
          · intro _ v hv
            obtain hblank | hblank := Indentation.blankKinds_cases run <;>
              simp [hblank, Indentation.afterRun, token] at hv <;> simp [← hv]
          · simp [Indentation.afterRun]
        | false =>
          rw [hlast] at hne hkinds hne' hkinds'
          have htells := hline [] q run ys rfl (by simpa using hlast)
          refine .of_line hne hne' hkinds hkinds' ?_ ?_ fun kind hkind => ?_
          · intro hkinds
            obtain hblank | hblank := Indentation.blankKinds_cases run <;> rw [hblank] at hkinds ⊢
            · exact htells.stays hkinds
            · have hturn := (i.turn_afterRun run false).ne_nil
              simp [hturn] at hkinds
          · intro hhead
            obtain hblank | hblank := Indentation.blankKinds_cases run <;> rw [hblank] at hhead ⊢
            · exact htells.closes hhead
            · simp at hhead
          · have hagrees := htells.settles kind hkind
            refine ih hothers hwell' (fun _ q' run' _ _ _ => tells_kept hagrees q' (width run')) fun hopened => ?_
            exact iff_of_true (mt hagrees.opened_eq_nil_iff.1 hopened) trivial
      | _ => cases hbreaks

section
variable {o : Outcome} {x y z : List Token} {t r : Token}

private theorem reflows_layout {group group' x' : List Token} (hne : group ≠ [])
    (hgroup : ∀ t ∈ group, t.kind.isLayout = true) (hgroup' : ∀ t ∈ group', t.kind.isLayout = true)
    (h : Reflows x x') : Reflows (group ++ x) (group' ++ x') := by
  have hdropped : ∀ group : List Token, (∀ t ∈ group, t.kind.isLayout = true) → Reflows (group ++ x) x' := by
    intro group hgroup
    induction group with
    | nil => exact h
    | cons t group ih =>
      obtain ⟨ht, hgroup⟩ := List.forall_mem_cons.1 hgroup
      exact @Reflows.layout t [] _ _ ht (by simp) (ih hgroup)
  obtain ⟨t, group, rfl⟩ := List.exists_cons_of_ne_nil hne
  obtain ⟨ht, hgroup⟩ := List.forall_mem_cons.1 hgroup
  exact .layout ht hgroup' (hdropped group hgroup)

/-- What becomes of the lines behind `x`, which are as before if a line ended there. -/
def RedrawnBehind (o : Outcome) (x y y' : List Token) : Prop :=
  (∃ t ∈ x, t.kind.isLayout = true) ∧ Redrawn .kept y y' ∨ (∀ t ∈ x, t.kind.isLayout = false) ∧ Redrawn o y y'

theorem RedrawnBehind.kept (h : RedrawnBehind .kept x y z) : Redrawn .kept y z := h.elim And.right And.right

/-- Up to a word, the same words stand on other lines, if the first line settles. -/
theorem Redrawn.exists_append (h : Redrawn o (x ++ r :: y) z) (hr : r.kind.isLayout = false)
    (heos : r.kind ≠ .eos) (hx : ∀ t, x.find? (·.kind.isLayout) = some t → o.settles t) :
    ∃ x' r' y', z = x' ++ r' :: y' ∧ Reflows (x ++ [r]) (x' ++ [r']) ∧ RedrawnBehind o x y y' := by
  generalize hw : x ++ r :: y = w at h
  induction h generalizing x with
  | @word _ t t' u u' ht _ hkind hvalue hu ih =>
    cases x with
    | nil =>
      obtain ⟨rfl, rfl⟩ := List.cons.inj hw
      exact ⟨[], t', u', rfl, .word ht hkind hvalue .nil, .inr ⟨by simp, hu⟩⟩
    | cons s x =>
      obtain ⟨rfl, hu⟩ := List.cons.inj hw
      obtain ⟨x', r', y', rfl, hreflows, hbehind⟩ := ih (by simpa [ht] using hx) hu
      refine ⟨t' :: x', r', y', rfl, .word ht hkind hvalue hreflows, ?_⟩
      simpa [RedrawnBehind, ht] using hbehind
  | @line _ t t' group group' u u' hgroup hgroup' _ _ _ ih =>
    obtain ⟨v, hlayout, -⟩ | ⟨v, rfl, hu⟩ := exists_split hw.symm
    · have := hgroup r (hlayout ▸ by simp)
      simp [hr] at this
    · have ht := hgroup t List.mem_cons_self
      obtain ⟨x', r', y', rfl, hreflows, hbehind⟩ := ih (hx t (by simp [ht])) (fun _ _ => trivial) hu.symm
      refine ⟨t' :: group' ++ x', r', y', by simp, ?_, .inl ⟨⟨t, by simp, ht⟩, hbehind.kept⟩⟩
      rw [List.append_assoc, List.append_assoc]
      exact reflows_layout (by simp) hgroup hgroup' hreflows
  | @final _ t _ group _ hgroup _ _ ht _ =>
    have hmem : r ∈ group ++ [t] := hw ▸ by simp
    obtain hmem | hmem := List.mem_append.1 hmem
    · have := hgroup r hmem
      simp [hr] at this
    · rw [List.mem_singleton.1 hmem] at heos
      exact absurd ht heos

theorem Redrawn.exists_cons (h : Redrawn o (r :: y) z) (hr : r.kind.isLayout = false)
    (heos : r.kind ≠ .eos) : ∃ r' y', z = r' :: y' ∧ r'.kind = r.kind ∧ Redrawn o y y' := by
  obtain ⟨x', r', y', rfl, hreflows, hbehind⟩ := @Redrawn.exists_append _ [] _ _ _ h hr heos (by simp)
  obtain ⟨t, u, hu, hkind, -, hnil⟩ := hreflows.exists_cons hr
  cases hnil
  obtain ⟨rfl, hlast⟩ := List.append_eq_singleton_iff.1 hu |>.resolve_right (by simp)
  obtain rfl : r' = t := by simpa using hlast
  exact ⟨r', y', rfl, hkind, by simpa [RedrawnBehind] using hbehind⟩

theorem Redrawn.exists_newline (h : Redrawn o (t :: r :: y) z) (ht : t.kind = .newline)
    (hr : r.kind.isLayout = false) (hword : r.kind ≠ .eos) : ∃ u group z', z = u :: group ++ z' ∧
      (∀ v ∈ u :: group, v.kind.isLayout = true) ∧ (u.kind = .newline ∧ group = [] ↔ o.stays t) ∧
      (o.settles t → Redrawn .kept (r :: y) z') := by
  generalize hw : t :: r :: y = w at h
  cases h with
  | word hlayout =>
    obtain ⟨rfl, -⟩ := List.cons.inj hw
    simp [ht, Kind.isLayout] at hlayout
  | @line _ _ u group group' _ x' hgroup hgroup' hnewline _ hx =>
    obtain ⟨rfl, hbehind⟩ := List.cons.inj hw
    cases group with
    | nil =>
      obtain rfl : r :: y = _ := hbehind
      exact ⟨u, group', x', rfl, hgroup', hnewline ht rfl, hx⟩
    | cons v group =>
      obtain ⟨rfl, -⟩ := List.cons.inj hbehind
      have := hgroup r (by simp)
      simp [hr] at this
  | @final _ _ _ group _ hgroup _ _ heos =>
    cases group with
    | nil =>
      obtain ⟨rfl, -⟩ := List.cons.inj hw
      simp [ht] at heos
    | cons v group =>
      obtain ⟨rfl, hbehind⟩ := List.cons.inj hw
      cases group with
      | nil =>
        obtain ⟨rfl, -⟩ := List.cons.inj hbehind
        exact absurd heos hword
      | cons v group =>
        obtain ⟨rfl, -⟩ := List.cons.inj hbehind
        have := hgroup r (by simp)
        simp [hr] at this

theorem Redrawn.head?_iff (h : Redrawn o (t :: y) z) (ht : t.kind = .outdent) :
    (∃ u ∈ z.head?, u.kind = .outdent) ↔ o.closes t := by
  generalize hw : t :: y = w at h
  cases h with
  | word hlayout =>
    obtain ⟨rfl, -⟩ := List.cons.inj hw
    simp [ht, Kind.isLayout] at hlayout
  | line _ _ _ houtdent =>
    obtain ⟨rfl, -⟩ := List.cons.inj hw
    simpa using houtdent ht
  | @final _ _ u group group' hgroup _ houtdent heos heos' =>
    cases group with
    | nil =>
      obtain ⟨rfl, -⟩ := List.cons.inj hw
      simp [ht] at heos
    | cons v group =>
      obtain ⟨rfl, -⟩ := List.cons.inj hw
      rw [← houtdent t rfl ht]
      cases group' <;> simp [heos']

end

end Token
end SqfLayout
