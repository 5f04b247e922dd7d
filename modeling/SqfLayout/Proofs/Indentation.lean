import Mathlib.Data.List.Basic
import SqfLayout.Indentation

/-! What a new line does to the open levels, with one case for each way in which its indentation can
compare with them. -/
namespace SqfLayout.Indentation
open Token (Kind)

/-- Every level is deeper than the one that it was opened in. -/
def Nested (i : Indentation) : Prop := (i.opened ++ [i.base]).Pairwise (· > ·)

/-- What a line of the given indentation makes of the levels, and the tokens it gives. -/
inductive Enters (width : Nat) (i : Indentation) : Indentation → List Kind → Prop
  | deeper (hwidth : i.level < width) : Enters width i ⟨i.base, width :: i.opened⟩ [.indent]
  | equal (hwidth : i.level = width) : Enters width i i [.newline]
  /-- Nothing is open, so the base can follow the line. -/
  | lower (hopened : i.opened = []) (hwidth : width < i.base) : Enters width i ⟨width, []⟩ [.newline]
  | back {closed left : List Nat} (hopened : i.opened = closed ++ left) (hne : closed ≠ [])
      (hclosed : ∀ l ∈ closed, width < l) (hwidth : level ⟨i.base, left⟩ = width) :
      Enters width i ⟨i.base, left⟩ (List.replicate closed.length .outdent)
  /-- The line lies between two levels, of which it closes the deeper one. -/
  | between {closed left : List Nat} (hopened : i.opened = closed ++ left) (hne : closed ≠ [])
      (hclosed : ∀ l ∈ closed, width < l) (hwidth : level ⟨i.base, left⟩ < width) :
      Enters width i ⟨i.base, width :: left⟩ (List.replicate closed.length .outdent ++ [.indent])
  /-- Levels are closed, and the base stays deeper than the line. -/
  | below (hopened : i.opened ≠ []) (hclosed : ∀ l ∈ i.opened, width < l) (hwidth : width < i.base) :
      Enters width i ⟨i.base, []⟩ (List.replicate i.opened.length .outdent)

section
variable {width : Nat} {i j : Indentation} {kinds : List Kind}

private theorem level_left_le (base : Nat) (opened : List Nat) (width : Nat)
    (hne : opened.dropWhile (width < ·) ≠ []) :
    level ⟨base, opened.dropWhile (width < ·)⟩ ≤ width := by
  have hhead := List.head?_dropWhile_not (width < ·) opened
  obtain ⟨l, left, hleft⟩ := List.exists_cons_of_ne_nil hne
  rw [hleft] at hhead ⊢
  simpa [level] using hhead

theorem enters (i : Indentation) (width : Nat) : Enters width i (i.enter width).1 (i.enter width).2 := by
  obtain ⟨base, opened⟩ := i
  have hsplit := (List.takeWhile_append_dropWhile (p := (width < ·)) (l := opened)).symm
  have hle := level_left_le base opened width
  have hall : ∀ l ∈ opened.takeWhile (width < ·), width < l := by
    simpa using List.all_eq_true.1 (List.all_takeWhile (p := (width < ·)) (l := opened))
  unfold enter
  dsimp only
  generalize opened.takeWhile (width < ·) = closed at *
  generalize opened.dropWhile (width < ·) = left at *
  by_cases hdeeper : level ⟨base, left⟩ < width
  · rw [if_pos hdeeper]
    by_cases hclosed : closed = []
    · subst hclosed
      obtain rfl : opened = left := hsplit
      exact .deeper hdeeper
    · exact .between hsplit hclosed hall hdeeper
  · rw [if_neg hdeeper]
    by_cases hclosed : closed = []
    · subst hclosed
      obtain rfl : opened = left := hsplit
      rw [if_pos (by simp)]
      by_cases hbelow : width < level ⟨base, opened⟩
      · rw [if_pos hbelow]
        have hopened : opened = [] := Decidable.byContradiction fun hne => by
          have := hle hne
          omega
        subst hopened
        exact .lower rfl hbelow
      · rw [if_neg hbelow]
        have hwidth : level ⟨base, opened⟩ = width := by omega
        exact .equal hwidth
    · rw [if_neg (by simpa using hclosed)]
      by_cases hbelow : width < level ⟨base, left⟩
      · have hleft : left = [] := Decidable.byContradiction fun hne => by
          have := hle hne
          omega
        subst hleft
        obtain rfl : opened = closed := hsplit.trans (List.append_nil closed)
        exact .below hclosed hall hbelow
      · have hwidth : level ⟨base, left⟩ = width := by omega
        exact .back hsplit hclosed hall hwidth

/-- The layout tokens of a line: it stays on its level, opens one, or closes some and perhaps opens
one between them. -/
inductive Turn : List Kind → Prop
  | newline : Turn [.newline]
  | indent : Turn [.indent]
  | outdents {n : Nat} (hn : 0 < n) : Turn (List.replicate n .outdent)
  | outdentsIndent {n : Nat} (hn : 0 < n) : Turn (List.replicate n .outdent ++ [.indent])

private theorem Enters.turn (h : Enters width i j kinds) : Turn kinds := by
  cases h with
  | deeper => exact .indent
  | equal => exact .newline
  | lower => exact .newline
  | back _ hne => exact .outdents (List.length_pos_iff.2 hne)
  | between _ hne => exact .outdentsIndent (List.length_pos_iff.2 hne)
  | below hopened => exact .outdents (List.length_pos_iff.2 hopened)

theorem Turn.ne_nil (h : Turn kinds) : kinds ≠ [] := by
  cases h with
  | outdents hn => simpa using Nat.ne_of_gt hn
  | newline | indent | outdentsIndent => simp

private theorem Turn.kind_cases (h : Turn kinds) :
    ∀ kind ∈ kinds, kind = .newline ∨ kind = .indent ∨ kind = .outdent := by
  have houtdent {n : Nat} : ∀ kind ∈ List.replicate n Kind.outdent,
      kind = .newline ∨ kind = .indent ∨ kind = .outdent :=
    fun kind hkind => .inr (.inr (List.eq_of_mem_replicate hkind))
  cases h with
  | newline => simp
  | indent => simp
  | outdents => exact houtdent
  | outdentsIndent => exact List.forall_mem_append.2 ⟨houtdent, by simp⟩

theorem Turn.isLayout (h : Turn kinds) : ∀ kind ∈ kinds, kind.isLayout = true := by
  intro kind hkind
  obtain rfl | rfl | rfl := h.kind_cases kind hkind <;> rfl

theorem Turn.ne_blank (h : Turn kinds) : ∀ kind ∈ kinds, kind ≠ .blank := by
  intro kind hkind
  obtain rfl | rfl | rfl := h.kind_cases kind hkind <;> simp

theorem nested_nil (base : Nat) : Nested ⟨base, []⟩ := by simp [Nested]

private theorem Nested.base_le_level (h : i.Nested) : i.base ≤ i.level := by
  obtain ⟨base, opened⟩ := i
  cases opened with
  | nil => exact Nat.le_refl base
  | cons l opened =>
    have hbase := (List.pairwise_cons.1 h).1 base (by simp)
    exact Nat.le_of_lt hbase

private theorem Nested.cons (h : i.Nested) (hwidth : i.level < width) :
    Nested ⟨i.base, width :: i.opened⟩ := by
  obtain ⟨base, opened⟩ := i
  refine List.pairwise_cons.2 ⟨fun l hl => ?_, h⟩
  cases opened with
  | nil =>
    obtain rfl : l = base := by simpa using hl
    exact hwidth
  | cons m opened =>
    obtain rfl | hl := List.mem_cons.1 hl
    · exact hwidth
    · exact Nat.lt_trans ((List.pairwise_cons.1 h).1 l hl) hwidth

private theorem Nested.left {closed left : List Nat} (h : i.Nested)
    (hopened : i.opened = closed ++ left) : Nested ⟨i.base, left⟩ := by
  unfold Nested at h
  rw [hopened, List.append_assoc] at h
  exact (List.pairwise_append.1 h).2.1

theorem Enters.nested (h : Enters width i j kinds) (hi : i.Nested) : j.Nested := by
  cases h with
  | deeper hwidth => exact hi.cons hwidth
  | equal => exact hi
  | lower => exact nested_nil width
  | back hopened => exact hi.left hopened
  | between hopened _ _ hwidth => exact (hi.left hopened).cons hwidth
  | below => exact nested_nil i.base

/-- The innermost level follows the line, unless the line closes levels and falls below the base. -/
theorem Enters.level_eq_iff (h : Enters width i j kinds) (hi : i.Nested) :
    j.level = width ↔ ¬ (width < i.base ∧ i.opened ≠ []) := by
  have hbase := hi.base_le_level
  cases h with
  | deeper hwidth => exact ⟨fun _ hbelow => by omega, fun _ => rfl⟩
  | equal hwidth => exact ⟨fun _ hbelow => by omega, fun _ => hwidth⟩
  | lower hopened => exact ⟨fun _ hbelow => hbelow.2 hopened, fun _ => rfl⟩
  | @back closed left hopened _ _ hwidth =>
    have hleft : i.base ≤ level ⟨i.base, left⟩ := (hi.left hopened).base_le_level
    exact ⟨fun _ hbelow => by omega, fun _ => hwidth⟩
  | @between closed left hopened _ _ hwidth =>
    have hleft : i.base ≤ level ⟨i.base, left⟩ := (hi.left hopened).base_le_level
    exact ⟨fun _ hbelow => by omega, fun _ => rfl⟩
  | below hopened _ hwidth =>
    exact ⟨fun hlevel => absurd hlevel (Nat.ne_of_gt hwidth), fun hbelow => absurd ⟨hwidth, hopened⟩ hbelow⟩

theorem Enters.base_le (h : Enters width i j kinds) : j.base ≤ i.base := by
  cases h with
  | lower _ hwidth => exact Nat.le_of_lt hwidth
  | _ => exact Nat.le_refl i.base

theorem Enters.opened_eq_nil (h : Enters width i j kinds) (hi : i.Nested) (hlevel : j.level ≠ width) :
    j.opened = [] ∧ width < j.base := by
  have hbase := hi.base_le_level
  cases h with
  | deeper | between | lower => exact absurd rfl hlevel
  | equal hwidth | back _ _ _ hwidth => exact absurd hwidth hlevel
  | below _ _ hwidth => exact ⟨rfl, hwidth⟩

private theorem lt_level {closed left : List Nat} (hopened : i.opened = closed ++ left)
    (hne : closed ≠ []) (hclosed : ∀ l ∈ closed, width < l) : width < i.level := by
  obtain ⟨l, closed, rfl⟩ := List.exists_cons_of_ne_nil hne
  simpa [level, hopened] using hclosed l (by simp)

theorem Enters.eq_indent_iff (h : Enters width i j kinds) : kinds = [.indent] ↔ i.level < width := by
  have hclosing {n : Nat} (hn : 0 < n) (more : List Kind) :
      List.replicate n Kind.outdent ++ more ≠ [.indent] := by
    obtain ⟨m, rfl⟩ := Nat.exists_eq_add_one.2 hn
    simp [List.replicate_succ]
  cases h with
  | deeper hwidth => exact ⟨fun _ => hwidth, fun _ => rfl⟩
  | equal hwidth => simp [hwidth]
  | lower hopened hwidth =>
    have hlevel : i.level = i.base := by simp [level, hopened]
    simp
    omega
  | back hopened hne hclosed =>
    have hlevel := lt_level hopened hne hclosed
    have hkinds := hclosing (List.length_pos_iff.2 hne) []
    exact ⟨fun h => absurd ((List.append_nil _).trans h) hkinds, fun h => by omega⟩
  | between hopened hne hclosed =>
    have hlevel := lt_level hopened hne hclosed
    exact ⟨fun h => absurd h (hclosing (List.length_pos_iff.2 hne) _), fun h => by omega⟩
  | below hne hclosed =>
    have hlevel := lt_level (List.append_nil _).symm hne hclosed
    have hkinds := hclosing (List.length_pos_iff.2 hne) []
    exact ⟨fun h => absurd ((List.append_nil _).trans h) hkinds, fun h => by omega⟩

/-- A line as deep as the innermost level stays there, and so does one above it where nothing is open
that it could close. -/
theorem Enters.eq_newline (h : Enters width i j kinds)
    (hwidth : i.level = width ∨ i.opened = [] ∧ width < i.base) : kinds = [.newline] := by
  have hopen {closed left : List Nat} (hopened : i.opened = closed ++ left) (hne : closed ≠ [])
      (hclosed : ∀ l ∈ closed, width < l) : False := by
    obtain hlevel | ⟨hnil, -⟩ := hwidth
    · exact Nat.ne_of_gt (lt_level hopened hne hclosed) hlevel
    · exact hne (List.append_eq_nil_iff.1 (hopened.symm.trans hnil)).1
  cases h with
  | deeper hdeeper =>
    obtain hlevel | ⟨hnil, hbase⟩ := hwidth
    · omega
    · have hlevel : i.level = i.base := by simp [level, hnil]
      omega
  | equal => rfl
  | lower => rfl
  | back hopened hne hclosed => exact (hopen hopened hne hclosed).elim
  | between hopened hne hclosed => exact (hopen hopened hne hclosed).elim
  | below hne hclosed => exact (hopen (List.append_nil _).symm hne hclosed).elim

theorem Enters.eq_newline_iff (h : Enters width i j kinds) :
    kinds = [.newline] ↔ i.level = width ∨ i.opened = [] ∧ width < i.base := by
  refine ⟨fun hkinds => ?_, h.eq_newline⟩
  have hclosing {n : Nat} (hn : 0 < n) (more : List Kind) :
      List.replicate n Kind.outdent ++ more ≠ [.newline] := by
    obtain ⟨m, rfl⟩ := Nat.exists_eq_add_one.2 hn
    simp [List.replicate_succ]
  cases h with
  | deeper => simp at hkinds
  | equal hwidth => exact .inl hwidth
  | lower hopened hwidth => exact .inr ⟨hopened, hwidth⟩
  | back _ hne | below hne =>
    exact absurd ((List.append_nil _).trans hkinds) (hclosing (List.length_pos_iff.2 hne) [])
  | between _ hne => exact absurd hkinds (hclosing (List.length_pos_iff.2 hne) _)

theorem Enters.head?_eq_outdent_iff (h : Enters width i j kinds) :
    kinds.head? = some .outdent ↔ width < i.level ∧ i.opened ≠ [] := by
  have hclosing {closed : List Nat} (hne : closed ≠ []) (more : List Kind) :
      (List.replicate closed.length Kind.outdent ++ more).head? = some .outdent := by
    obtain ⟨l, closed, rfl⟩ := List.exists_cons_of_ne_nil hne
    rfl
  cases h with
  | deeper hwidth =>
    simp
    omega
  | equal hwidth => simp [hwidth]
  | lower hopened => simp [hopened]
  | @back closed left hopened hne hclosed =>
    have hlevel := lt_level hopened hne hclosed
    have hkinds := hclosing hne []
    rw [List.append_nil] at hkinds
    exact ⟨fun _ => ⟨hlevel, by simp [hopened, hne]⟩, fun _ => hkinds⟩
  | @between closed left hopened hne hclosed =>
    have hlevel := lt_level hopened hne hclosed
    exact ⟨fun _ => ⟨hlevel, by simp [hopened, hne]⟩, fun _ => hclosing hne _⟩
  | below hne hclosed =>
    have hlevel := lt_level (List.append_nil _).symm hne hclosed
    have hkinds := hclosing hne []
    rw [List.append_nil] at hkinds
    exact ⟨fun _ => ⟨hlevel, hne⟩, fun _ => hkinds⟩

theorem Nested.opened_eq_nil_iff (h : i.Nested) : i.opened = [] ↔ i.level = i.base := by
  obtain ⟨base, opened⟩ := i
  cases opened with
  | nil => exact ⟨fun _ => rfl, fun _ => rfl⟩
  | cons l opened =>
    have hbase : base < l := (List.pairwise_cons.1 h).1 base (by simp)
    simp only [level, List.head?_cons, Option.getD_some]
    exact ⟨fun h => by simp at h, fun h => by omega⟩

theorem Enters.base_eq (h : Enters width i j kinds) :
    j.base = if i.opened = [] ∧ width < i.base then width else i.base := by
  cases h with
  | deeper hwidth =>
    refine (if_neg fun hbelow => ?_).symm
    have hlevel : i.level = i.base := by simp [level, hbelow.1]
    omega
  | equal hwidth =>
    refine (if_neg fun hbelow => ?_).symm
    have hlevel : i.level = i.base := by simp [level, hbelow.1]
    omega
  | lower hopened hwidth => exact (if_pos ⟨hopened, hwidth⟩).symm
  | back hopened hne | between hopened hne => exact (if_neg (by simp [hopened, hne])).symm
  | below hopened => exact (if_neg (by simp [hopened])).symm

private theorem Enters.level_eq (h : Enters width i j kinds) (hi : i.Nested) :
    j.level = if width < i.base ∧ i.opened ≠ [] then i.base else width := by
  split
  · rename_i hbelow
    have hlevel : j.level ≠ width := mt (h.level_eq_iff hi).1 (not_not_intro hbelow)
    rw [((h.nested hi).opened_eq_nil_iff).1 (h.opened_eq_nil hi hlevel).1, h.base_eq, if_neg (by simp [hbelow.2])]
  · rename_i hbelow
    exact (h.level_eq_iff hi).2 hbelow

/-- A line that stays on its level does not lie below the base, which may have followed it. -/
theorem Enters.base_le_width (h : Enters width i j kinds) (hi : i.Nested) (hkinds : .newline ∈ kinds) :
    j.base ≤ width := by
  have hnone (n : Nat) : Kind.newline ∉ List.replicate n .outdent := fun hmem => by
    cases List.eq_of_mem_replicate hmem
  cases h with
  | deeper => simp at hkinds
  | equal hwidth => exact hwidth ▸ hi.base_le_level
  | lower => exact Nat.le_refl width
  | back | below => exact absurd hkinds (hnone _)
  | between => simp at hkinds

/-- States that no line tells apart. -/
structure Agrees (i j : Indentation) : Prop where
  nested : i.Nested
  nested' : j.Nested
  base_eq : j.base = i.base
  level_eq : j.level = i.level

theorem Nested.agrees (h : i.Nested) : i.Agrees i := ⟨h, h, rfl, rfl⟩

theorem Agrees.opened_eq_nil_iff (h : i.Agrees j) : j.opened = [] ↔ i.opened = [] := by
  rw [h.nested.opened_eq_nil_iff, h.nested'.opened_eq_nil_iff, h.base_eq, h.level_eq]

theorem Agrees.enter (h : i.Agrees j) (width : Nat) : (i.enter width).1.Agrees (j.enter width).1 := by
  have hi := i.enters width
  have hj := j.enters width
  refine ⟨hi.nested h.nested, hj.nested h.nested', ?_, ?_⟩
  · simp only [hi.base_eq, hj.base_eq, h.base_eq, h.opened_eq_nil_iff]
  · simp only [hi.level_eq h.nested, hj.level_eq h.nested', h.base_eq, ne_eq, h.opened_eq_nil_iff]

theorem agrees_enter (hi : i.Nested) (hj : j.Nested) (hbase : j.base = i.base) (hwidth : i.base ≤ width) :
    (i.enter width).1.Agrees (j.enter width).1 := by
  have hi' := i.enters width
  have hj' := j.enters width
  refine ⟨hi'.nested hi, hj'.nested hj, ?_, ?_⟩
  · rw [hi'.base_eq, hj'.base_eq, hbase, if_neg (by omega), if_neg (by omega)]
  · rw [hi'.level_eq hi, hj'.level_eq hj, hbase, if_neg (by omega), if_neg (by omega)]

theorem Agrees.eq_newline_iff (h : i.Agrees j) (width : Nat) :
    (j.enter width).2 = [.newline] ↔ (i.enter width).2 = [.newline] := by
  rw [(i.enters width).eq_newline_iff, (j.enters width).eq_newline_iff, h.base_eq, h.level_eq,
    h.opened_eq_nil_iff]

theorem Agrees.head?_eq_outdent_iff (h : i.Agrees j) (width : Nat) :
    (j.enter width).2.head? = some .outdent ↔ (i.enter width).2.head? = some .outdent := by
  rw [(i.enters width).head?_eq_outdent_iff, (j.enters width).head?_eq_outdent_iff, h.level_eq, ne_eq,
    h.opened_eq_nil_iff]

end

theorem countBreaks_cons {c : Char} {t : Text} (h : ¬ (c = '\r' ∧ t.head? = some '\n')) :
    countBreaks (c :: t) = countBreaks t + if Text.isBreak c then 1 else 0 := by
  cases t with
  | nil => simp [countBreaks]
  | cons d t => rw [countBreaks, if_neg (by simpa using h)]

/-- The blank in front of the tokens of a line, if its run of line breaks holds an empty line. -/
def blankKinds (run : Text) : List Kind := if 1 < countBreaks run then [.blank] else []

theorem blankKinds_cases (run : Text) : blankKinds run = [] ∨ blankKinds run = [.blank] := by
  unfold blankKinds
  split <;> simp

theorem blanks_eq (p : Position) (run : Text) : blanks p run = (blankKinds run).map (token p) := by
  unfold blanks blankKinds
  split <;> rfl

/-- What a run of line breaks makes of the levels, and the tokens it gives behind a blank. The last run
of a source starts no line. -/
def afterRun (i : Indentation) (run : Text) (last : Bool) : Indentation × List Kind :=
  if last then (i, [.newline]) else i.enter (width run)

theorem turn_afterRun (i : Indentation) (run : Text) (last : Bool) : Turn (i.afterRun run last).2 := by
  cases last with
  | true => exact .newline
  | false => exact (i.enters (width run)).turn

theorem nested_afterRun {i : Indentation} (h : i.Nested) (run : Text) (last : Bool) :
    (i.afterRun run last).1.Nested := by
  cases last with
  | true => exact h
  | false => exact (i.enters (width run)).nested h

end SqfLayout.Indentation
