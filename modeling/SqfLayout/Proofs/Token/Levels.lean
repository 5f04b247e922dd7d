import Mathlib
import SqfLayout.Proofs.Token.Pieces

/-! The levels that are open on a line of a source, and the indentation of the line. They belong
together as long as no line falls below the first one while levels are open. -/
namespace SqfLayout.Token
open Indentation (width Nested)

instance (x : Piece) : Decidable x.IsLayout :=
  inferInstanceAs (Decidable (∀ t ∈ x.tokens, t.kind.isLayout = true))

/-- The layout tokens of a piece, without the blank in front of them. -/
def Piece.turn (x : Piece) : List Kind := (x.tokens.map Token.kind).filter (· ≠ .blank)

/-- The levels that are open behind pieces that more pieces follow. -/
def levelsBehind (i : Indentation) : List Piece → Indentation
  | [] => i
  | x :: xs => levelsBehind (if x.IsLayout then (i.enter (width x.text)).1 else i) xs

/-- The indentation of the line on which pieces end, if they begin on a line indented by `n`. -/
def indentBehind (n : Nat) : List Piece → Nat
  | [] => n
  | x :: xs => indentBehind (if x.IsLayout then width x.text else n) xs

/-- The line that the run `x` starts, behind the pieces `front`, in a source whose first line is
indented by `first`. -/
structure Levelled (first : Nat) (front : List Piece) (x : Piece) : Prop where
  turn_eq : x.turn = ((levelsBehind ⟨first, []⟩ front).enter (width x.text)).2
  nested : (levelsBehind ⟨first, []⟩ (front ++ [x])).Nested
  /-- The innermost level is the indentation of the line, unless levels were open and the line lies
  below all of them and the base. -/
  level_iff : (levelsBehind ⟨first, []⟩ (front ++ [x])).level = width x.text ↔
    ¬ (width x.text < (levelsBehind ⟨first, []⟩ front).base ∧ (levelsBehind ⟨first, []⟩ front).opened ≠ [])
  equal : indentBehind first front = width x.text → x.turn = [.newline]
  /-- A line opens a level if it is deeper than the innermost one, wherever the line before it lies. -/
  indent_iff : x.turn = [.indent] ↔ (levelsBehind ⟨first, []⟩ front).level < width x.text
  /-- Where no line lies below the first one, no level goes astray. -/
  above_first : (∀ u ∈ front ++ [x], u.IsLayout → first ≤ width u.text) →
    (levelsBehind ⟨first, []⟩ (front ++ [x])).level = width x.text ∧
      (indentBehind first front < width x.text → x.turn = [.indent])

section
variable {i j : Indentation} {n : Nat} {xs : List Piece}

private theorem levelsBehind_append (i : Indentation) (xs ys : List Piece) :
    levelsBehind i (xs ++ ys) = levelsBehind (levelsBehind i xs) ys := by
  induction xs generalizing i with
  | nil => rfl
  | cons x xs ih => exact ih _

private theorem indentBehind_append (n : Nat) (xs ys : List Piece) :
    indentBehind n (xs ++ ys) = indentBehind (indentBehind n xs) ys := by
  induction xs generalizing n with
  | nil => rfl
  | cons x xs ih => exact ih _

/-- The levels fit a line indented by `n`: the innermost is as deep as the line, or nothing is open and
the line lies below the base. -/
structure Fits (n : Nat) (i : Indentation) : Prop where
  nested : i.Nested
  level_eq : i.level = n ∨ i.opened = [] ∧ n < i.base

private theorem fits_first (first : Nat) : Fits first ⟨first, []⟩ := ⟨Indentation.nested_nil first, .inl rfl⟩

private theorem Fits.enter (h : Fits n i) (m : Nat) : Fits m (i.enter m).1 := by
  have henters := i.enters m
  refine ⟨henters.nested h.nested, ?_⟩
  by_cases hlevel : (i.enter m).1.level = m
  · exact .inl hlevel
  · exact .inr (henters.opened_eq_nil h.nested hlevel)

private theorem Fits.behind (h : Fits n i) (xs : List Piece) : Fits (indentBehind n xs) (levelsBehind i xs) := by
  induction xs generalizing i n with
  | nil => exact h
  | cons x xs ih =>
    rw [levelsBehind, indentBehind]
    split
    · exact ih (h.enter _)
    · exact ih h

/-- Where no line lies below the base, the innermost level follows the lines. -/
private theorem level_behind_eq (h : Fits n i) (hlevel : i.level = n)
    (hxs : ∀ x ∈ xs, x.IsLayout → i.base ≤ width x.text) :
    (levelsBehind i xs).level = indentBehind n xs := by
  induction xs generalizing i n with
  | nil => exact hlevel
  | cons x xs ih =>
    obtain ⟨hx, hxs⟩ := List.forall_mem_cons.1 hxs
    rw [levelsBehind, indentBehind]
    split
    · rename_i hlayout
      have henters := i.enters (width x.text)
      have hbelow : ¬ (width x.text < i.base ∧ i.opened ≠ []) :=
        fun hbelow => Nat.not_lt.2 (hx hlayout) hbelow.1
      refine ih (h.enter _) ((henters.level_eq_iff h.nested).2 hbelow) fun y hy hlayout => ?_
      exact Nat.le_trans henters.base_le (hxs y hy hlayout)
    · exact ih h hlevel hxs

theorem isLayout_of_run {x : Piece} {run : Text} {last : Bool}
    (hx : x.tokens.map Token.kind = Indentation.blankKinds run ++ (i.afterRun run last).2) :
    x.IsLayout := by
  have hkinds := (layout_of_run i run last).2
  rw [← hx] at hkinds
  exact fun t ht => hkinds t.kind (List.mem_map_of_mem ht)

private theorem turn_of_run {x : Piece} {run : Text} {last : Bool}
    (hx : x.tokens.map Token.kind = Indentation.blankKinds run ++ (i.afterRun run last).2) :
    x.turn = (i.afterRun run last).2 := by
  have hblank : (Indentation.blankKinds run).filter (· ≠ .blank) = [] := by
    unfold Indentation.blankKinds
    split <;> rfl
  have hturn : (i.afterRun run last).2.filter (· ≠ .blank) = (i.afterRun run last).2 := by
    refine List.filter_eq_self.2 fun kind hkind => ?_
    simpa using (i.turn_afterRun run last).ne_blank kind hkind
  rw [Piece.turn, hx, List.filter_append, hblank, hturn]
  rfl

theorem Runs.tokens_of_run (h : Runs i xs j) {front back : List Piece} {x : Piece}
    (hxs : xs = front ++ x :: back) (hx : x.IsLayout) : x.tokens.map Token.kind =
      Indentation.blankKinds x.text ++ ((levelsBehind i front).afterRun x.text back.isEmpty).2 := by
  induction h generalizing front with
  | nil => simp at hxs
  | @tokens i j y ys hne hy _ ih =>
    cases front with
    | nil =>
      cases hxs
      exact absurd hx (Piece.not_isLayout hne hy)
    | cons z front =>
      obtain ⟨rfl, hys⟩ := List.cons.inj hxs
      rw [levelsBehind, if_neg (Piece.not_isLayout hne hy)]
      exact ih hys
  | @run i j y ys hy _ ih =>
    cases front with
    | nil =>
      cases hxs
      exact hy
    | cons z front =>
      obtain ⟨rfl, hys⟩ := List.cons.inj hxs
      have hmore : ys.isEmpty = false := by simp [hys]
      rw [hmore] at hy ih
      rw [levelsBehind, if_pos (isLayout_of_run hy)]
      exact ih hys

private theorem Runs.levelled {first : Nat} (h : Runs ⟨first, []⟩ xs j) {front back : List Piece} {x y : Piece}
    (hxs : xs = front ++ x :: y :: back) (hx : x.IsLayout) : Levelled first front x := by
  have hfits := (fits_first first).behind front
  have henters := (levelsBehind ⟨first, []⟩ front).enters (width x.text)
  have hbehind : levelsBehind ⟨first, []⟩ (front ++ [x]) =
      ((levelsBehind ⟨first, []⟩ front).enter (width x.text)).1 := by
    rw [levelsBehind_append, levelsBehind, if_pos hx]
    rfl
  have hturn : x.turn = ((levelsBehind ⟨first, []⟩ front).enter (width x.text)).2 :=
    turn_of_run (h.tokens_of_run hxs hx)
  have hdeeper := henters.eq_indent_iff
  rw [← hturn] at hdeeper
  refine ⟨hturn, ?_, ?_, ?_, hdeeper, ?_⟩
  · rw [hbehind]
    exact henters.nested hfits.nested
  · rw [hbehind]
    exact henters.level_eq_iff hfits.nested
  · intro hequal
    rw [hturn]
    exact henters.eq_newline (hequal ▸ hfits.level_eq)
  · intro hall
    have hfront := level_behind_eq (fits_first first) rfl fun u hu => hall u (List.mem_append_left [x] hu)
    have hline := level_behind_eq (fits_first first) rfl hall
    rw [indentBehind_append, indentBehind, if_pos hx] at hline
    exact ⟨hline, fun hwidth => hdeeper.2 (hfront ▸ hwidth)⟩

end

/-- Every run of line breaks before other text starts a line whose indentation the levels follow, unless
it lies below the first line. -/
theorem stream_levelled (source : Text) :
    (∃ fault, stream source = .error fault) ∨
    ∃ xs j, stream source =
        .ok (tokensOf xs ++ Indentation.finish j (Position.start.advance (Text.dropMark source))) ∧
      Text.dropMark source = margin source ++ textOf xs ∧ IsCut xs ∧
      ∀ front x y back, xs = front ++ x :: y :: back → x.IsLayout →
        Levelled (margin source).length front x := by
  cases hstream : stream source with
  | error fault => exact .inl ⟨fault, rfl⟩
  | ok tokens =>
    obtain ⟨xs, j, htokens, hruns, hfollow⟩ := exists_runs_of_stream hstream
    refine .inr ⟨xs, j, congrArg Except.ok htokens, ?_, hfollow.isCut, ?_⟩
    · rw [hfollow.textOf_eq, margin_append_body]
    · exact fun front x y back hxs hx => hruns.levelled hxs hx

/-- A source whose third line lies below the first one, while a level is open. -/
def strayed : Text := "    a\n        b\n  c\n    d"

def strayedFront : List Piece :=
  [⟨[⟨.command, "a", ⟨1, 5⟩⟩], "a"⟩, ⟨[Indentation.token ⟨1, 6⟩ .indent], "\n        "⟩,
    ⟨[⟨.command, "b", ⟨2, 9⟩⟩], "b"⟩, ⟨[Indentation.token ⟨2, 10⟩ .outdent], "\n  "⟩,
    ⟨[⟨.command, "c", ⟨3, 3⟩⟩], "c"⟩]

def strayedRun : Piece := ⟨[Indentation.token ⟨3, 4⟩ .newline], "\n    "⟩

/-- The last line is deeper than the one before it and opens no level, since the innermost level was
not that of the line before. -/
theorem strayed_misses_indent :
    stream strayed = .ok (tokensOf (strayedFront ++ [strayedRun]) ++
      [⟨.command, "d", ⟨4, 5⟩⟩, eos ⟨4, 6⟩]) ∧
    strayed = "    " ++ textOf (strayedFront ++ [strayedRun]) ++ "d" ∧
    (levelsBehind ⟨4, []⟩ strayedFront).level ≠ indentBehind 4 strayedFront ∧
    indentBehind 4 strayedFront < width strayedRun.text ∧ strayedRun.turn ≠ [.indent] := by
  have hstream : stream strayed = .ok [⟨.command, "a", ⟨1, 5⟩⟩, Indentation.token ⟨1, 6⟩ .indent,
      ⟨.command, "b", ⟨2, 9⟩⟩, Indentation.token ⟨2, 10⟩ .outdent, ⟨.command, "c", ⟨3, 3⟩⟩,
      Indentation.token ⟨3, 4⟩ .newline, ⟨.command, "d", ⟨4, 5⟩⟩, eos ⟨4, 6⟩] := by cbv
  exact ⟨hstream, by simp [strayed, strayedFront, strayedRun, textOf], by decide +kernel,
    by decide +kernel, by decide +kernel⟩

end SqfLayout.Token
