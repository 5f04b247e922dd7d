import SqfLayout.Proofs.Expression.Viable
import SqfLayout.Proofs.Layout.EntryArray
import SqfLayout.Proofs.Layout.Rejection

/-! The check of a statement fails at the first token that cannot be right, but for a code block without an
end. -/
namespace SqfLayout.Layout
open TokenReader
open Expression (Derives)

section
variable {c : Convention} {whole : List Token} {kind : Token.Kind}

private theorem decisive_passFor (whole : List Token) (hint : Hint) (hkind : kind ≠ .eos) :
    Decisive id whole (passFor hint kind) fun _ x => ∃ t : Token, t.kind = kind ∧ x = [t] := by
  refine (decisive_expect whole (some hint) hkind).bind ?_
  rintro t _ ⟨ht, rfl⟩
  exact decisive_pure ⟨t, ht, rfl⟩

private theorem decisive_pass (whole : List Token) (hkind : kind ≠ .eos) :
    Decisive id whole (pass kind) fun _ x => ∃ t : Token, t.kind = kind ∧ x = [t] := by
  refine (decisive_expect whole none hkind).bind ?_
  rintro t _ ⟨ht, rfl⟩
  exact decisive_pure ⟨t, ht, rfl⟩

/-- The value of a literal is looked at once it is taken, so the token blamed for it is the one before. -/
private theorem decisive_literal (whole : List Token) {value : Text} (type : Text) (sen : Sentinel)
    (hkind : kind ≠ .eos) : Decisive id whole (literal kind value type sen)
      fun _ x => ∃ t : Token, t.kind = kind ∧ t.value = value ∧ x = [t] := by
  let right : Token := ⟨kind, value, Position.start⟩
  have hright : ∃ t : Token, t.kind = kind ∧ t.value = value ∧ [right] = [t] := ⟨right, rfl, rfl, rfl⟩
  refine ⟨⟨(), [right], hright⟩, fun s hs => ?_⟩
  obtain ⟨t, m, rfl⟩ := List.exists_cons_of_ne_nil hs.ne_nil
  by_cases ht : t.kind = kind
  · by_cases hvalue : t.value = value
    · exact .done (a := ()) (x := [t]) rfl ⟨t, ht, hvalue, rfl⟩ (hs.tail (by rwa [ht])) fun m' _ =>
        (literal_ok_iff hkind).2 ⟨t, ht, hvalue, rfl⟩
    · let refused : Violation := ⟨.wrongSentinel type sen, t.position⟩
      exact decides_refused (e := refused) hs (fun _ => literal_of_value_ne ht hkind hvalue) rfl
        ⟨(), [right], hright⟩
  · let refused : Violation := ⟨.mismatch kind t (some (.typeCheck type sen)), t.position⟩
    exact decides_refused (e := refused) hs (fun _ => literal_of_kind_ne ht) rfl ⟨(), [right], hright⟩

private theorem decisive_sentinel (whole : List Token) (type : Text) (sen : Sentinel) :
    Decisive id whole (sentinel type sen) fun _ x => Spells sen x := by
  cases sen with
  | emptyArray =>
    refine (decisive_passFor whole _ (by simp)).bind ?_
    rintro _ _ ⟨l, hl, rfl⟩
    refine (decisive_pass whole (by simp)).mono ?_
    rintro _ _ ⟨r, hr, rfl⟩
    exact .emptyArray hl hr
  | emptyCode =>
    refine (decisive_passFor whole _ (by simp)).bind ?_
    rintro _ _ ⟨l, hl, rfl⟩
    refine (decisive_pass whole (by simp)).mono ?_
    rintro _ _ ⟨r, hr, rfl⟩
    exact .emptyCode hl hr
  | command name =>
    refine (decisive_literal whole type _ (by simp)).mono ?_
    rintro _ _ ⟨t, ht, rfl, rfl⟩
    exact .command ht
  | number text =>
    refine (decisive_literal whole type _ (by simp)).mono ?_
    rintro _ _ ⟨t, ht, rfl, rfl⟩
    exact .number ht
  | string text =>
    refine (decisive_literal whole type _ (by simp)).mono ?_
    rintro _ _ ⟨t, ht, rfl, rfl⟩
    exact .string ht

private theorem decisive_checkType (whole : List Token) (type : Text) :
    Decisive id whole (checkType c type) fun _ x => ChecksType c type x := by
  unfold checkType ChecksType
  cases c.sentinel? type with
  | none => exact decisive_pure rfl
  | some sen => exact decisive_sentinel whole type sen

private theorem decisive_typeChecks (whole : List Token) (types : List Text) :
    Decisive id whole (typeChecks c types) fun _ x => ChecksTypes c types x := by
  induction types with
  | nil => exact decisive_pure .nil
  | cons type types ih =>
    by_cases htypes : types = []
    · subst htypes
      rw [typeChecks_single]
      exact (decisive_checkType whole type).mono fun _ x hx => .single hx
    · rw [typeChecks_cons c type htypes]
      refine (decisive_checkType whole type).bind fun _ x hx => ?_
      refine (decisive_passFor whole _ (by simp)).bind ?_
      rintro _ _ ⟨sep, hsep, rfl⟩
      refine (decisive_pass whole (by simp)).bind ?_
      rintro _ _ ⟨gap, hgap, rfl⟩
      exact ih.mono fun _ y hy => .cons hx hsep hgap htypes hy

/-- An array, or else a number. -/
private def size : TokenReader Unit := do
  if (next (← get)).kind = .leftBracket then
    let _ ← Expression.readArray
  else pass .number

private theorem decisive_size (whole : List Token) : Decisive id whole size fun _ x =>
    (∃ t : Token, t.kind = .number ∧ x = [t]) ∨ ∃ items, Derives (.array items) x := by
  have harray : Decisive id whole (do let _ ← Expression.readArray : TokenReader Unit)
      fun _ x => ∃ items, Derives (.array items) x := by
    refine (Expression.decisive_readArray whole).bind ?_
    rintro _ x ⟨items, -, hx⟩
    exact decisive_pure ⟨items, by rwa [List.append_nil]⟩
  have hnumber : Decisive id whole (pass .number) fun _ x => ∃ t : Token, t.kind = .number ∧ x = [t] :=
    decisive_pass whole (by simp)
  refine ⟨?_, fun s hs => ?_⟩
  · obtain ⟨_, x, hx⟩ := hnumber.inhabited
    exact ⟨(), x, .inl hx⟩
  obtain ⟨t, m, rfl⟩ := List.exists_cons_of_ne_nil hs.ne_nil
  by_cases ht : t.kind = .leftBracket
  · refine .behind (x := []) (fun m' hfront => ?_) ((harray.mono fun _ x hx => .inr hx).decides _ hs)
    obtain ⟨more, rfl⟩ := hfront.exists_cons
    exact congrFun (if_pos ht) _
  · refine .behind (x := []) (fun m' hfront => ?_) ((hnumber.mono fun _ x hx => .inl hx).decides _ hs)
    obtain ⟨more, rfl⟩ := hfront.exists_cons
    exact congrFun (if_neg ht) _

private theorem decisive_sizeCheckOf (whole : List Token) (types : List Text) :
    Decisive id whole (sizeCheckOf c types) fun _ x => ChecksSizeOf c types x := by
  unfold sizeCheckOf ChecksSizeOf
  by_cases h : NeedsSize c types
  · rw [if_pos (needsSizeCheck_iff.2 h)]
    refine (decisive_passFor whole _ (by simp)).bind ?_
    rintro _ _ ⟨sep, hsep, rfl⟩
    refine (decisive_pass whole (by simp)).bind ?_
    rintro _ _ ⟨gap, hgap, rfl⟩
    refine (decisive_size whole).mono ?_
    rintro _ x (⟨t, ht, rfl⟩ | ⟨items, hx⟩)
    · exact .inl ⟨h, .number hsep hgap ht⟩
    · exact .inl ⟨h, .array hsep hgap hx⟩
  · rw [if_neg fun hc => h (needsSizeCheck_iff.1 hc)]
    exact decisive_pure (.inr ⟨h, rfl⟩)

private theorem decisive_entry (whole : List Token) (p : Parameter) :
    Decisive id whole (entry c p) fun bound x => Binds c p x bound := by
  rw [entry_eq]
  refine (decisive_passFor whole _ (by simp)).bind ?_
  rintro _ _ ⟨l, hl, rfl⟩
  refine (decisive_expect whole none (by simp)).bind ?_
  rintro name _ ⟨hname, rfl⟩
  refine (decisive_pass whole (by simp)).bind ?_
  rintro _ _ ⟨sep, hsep, rfl⟩
  refine (decisive_pass whole (by simp)).bind ?_
  rintro _ _ ⟨gap, hgap, rfl⟩
  refine (Expression.decisive_read whole).bind fun value x hx => ?_
  refine (decisive_passFor whole _ (by simp)).bind ?_
  rintro _ _ ⟨sep', hsep', rfl⟩
  refine (decisive_pass whole (by simp)).bind ?_
  rintro _ _ ⟨gap', hgap', rfl⟩
  refine (decisive_pass whole (by simp)).bind ?_
  rintro _ _ ⟨l', hl', rfl⟩
  refine (decisive_typeChecks whole p.types).bind fun _ y hy => ?_
  refine (decisive_pass whole (by simp)).bind ?_
  rintro _ _ ⟨r', hr', rfl⟩
  refine (decisive_sizeCheckOf whole p.types).bind fun _ z hz => ?_
  refine (decisive_pass whole (by simp)).bind ?_
  rintro _ _ ⟨r, hr, rfl⟩
  refine decisive_pure ?_
  simpa using Binds.entry hl hname hsep hgap hx hsep' hgap' hl' hy hr' hz hr

private theorem decisive_logged {α : Type} {r : TokenReader α} {G : α → List Token → Prop} (log : List Event)
    (h : Decisive id whole r G) : Decisive Rejection.violation whole (logged log r) G := by
  refine ⟨h.inhabited, fun s hs => ?_⟩
  cases h.decides s hs with
  | done hs hx hm hread => exact .done hs hx hm fun m' hfront => logged_ok_iff.2 (hread m' hfront)
  | unclosed hread he => exact .unclosed (by rw [logged_apply, hread]) he
  | stuck hs hm hread he hviable hstuck =>
    refine .stuck hs hm (by rw [logged_apply, hread]) he hviable fun m' hfront => ?_
    obtain ⟨e, rest, hfails⟩ := hstuck m' hfront
    exact ⟨_, rest, by rw [logged_apply, hfails]⟩

private theorem decisive_entries (whole : List Token) (log : List Event) {ps : List Parameter} (hps : ps ≠ []) :
    Decisive Rejection.violation whole (entries c log ps) fun bound x => BindsAll c ps x bound := by
  induction ps generalizing log with
  | nil => exact absurd rfl hps
  | cons p ps ih =>
    have hentry := decisive_logged log (decisive_entry (c := c) whole p)
    by_cases hlater : ps = []
    · subst hlater
      rw [entries_single]
      refine hentry.bind fun bound x hx => ?_
      refine decisive_pure ?_
      rw [List.append_nil]
      exact .single hx
    · rw [entries_cons c log p hlater]
      refine hentry.bind fun bound x hx => ?_
      refine (decisive_logged _ ((decisive_passFor whole _ (by simp)).bind ?_)).bind
        (G := fun _ y => ∃ sep line : Token, sep.kind = .comma ∧ line.kind = .newline ∧ y = [sep, line]) ?_
      · rintro _ _ ⟨sep, hsep, rfl⟩
        refine (decisive_pass whole (by simp)).mono ?_
        rintro _ _ ⟨line, hline, rfl⟩
        exact ⟨sep, line, hsep, hline, rfl⟩
      · rintro _ _ ⟨sep, line, hsep, hline, rfl⟩
        refine (ih _ hlater).bind fun bounds y hy => decisive_pure ?_
        simpa using BindsAll.cons hx hsep hline hy

private theorem decisive_boundEntries (whole : List Token) (log : List Event) {ps : List Parameter} (hps : ps ≠ []) :
    Decisive Rejection.violation whole (boundEntries c log ps) fun bound x =>
      ∃ y outdent, BindsAll c ps y bound ∧ outdent.kind = .outdent ∧ x = y ++ [outdent] := by
  refine (decisive_entries whole log hps).bind fun bound y hy => ?_
  refine (decisive_logged _ (decisive_passFor whole _ (by simp))).bind ?_
  rintro _ _ ⟨outdent, houtdent, rfl⟩
  exact decisive_pure ⟨y, outdent, hy, houtdent, by simp⟩

private theorem decisive_openStatement (whole : List Token) : Decisive id whole openStatement fun _ x =>
    ∃ gap l indent : Token, gap.kind = .space ∧ l.kind = .leftBracket ∧ indent.kind = .indent ∧
      x = [gap, l, indent] := by
  refine (decisive_pass whole (by simp)).bind ?_
  rintro _ _ ⟨gap, hgap, rfl⟩
  refine (decisive_pass whole (by simp)).bind ?_
  rintro _ _ ⟨l, hl, rfl⟩
  refine (decisive_passFor whole _ (by simp)).mono ?_
  rintro _ _ ⟨indent, hindent, rfl⟩
  exact ⟨gap, l, indent, hgap, hl, hindent, rfl⟩

variable {h : Header} {x s : List Token} {command : Token}

private theorem decides_layout (hx : Declares c x h) (hparameters : h.parameters ≠ [])
    (hcommand : command.kind = .command) (hvalue : command.value = c.parametersCommand)
    (hs : Rest whole s) : Decides Rejection.violation whole (layout c)
      (fun h' y => ∀ rest, Conforms c (y ++ rest) h') (x ++ command :: s) := by
  let log : List Event := [.headerRead h.authors h.parameters.length]
  rw [List.append_cons]
  refine .behind (r := logged log openStatement >>= fun _ => boundEntries c log h.parameters >>= fun bound =>
    pure { h with parameters := bound }) (fun m' _ => ?_) ?_
  · rw [← List.append_cons, layout_of_declares hx hparameters ⟨command, m', rfl, hcommand, hvalue⟩, ← bind_assoc]
    exact bind_eq_bind (binding_command (by simp [hcommand])) _
  refine Decisive.decides (.bind (decisive_logged log (decisive_openStatement whole)) ?_) s hs
  rintro _ _ ⟨gap, l, indent, hgap, hl, hindent, rfl⟩
  refine (decisive_boundEntries whole log hparameters).bind ?_
  rintro bound _ ⟨y, outdent, hy, houtdent, rfl⟩
  refine decisive_pure fun rest => ?_
  have hopens : Opens c (x ++ [command, gap, l, indent]) h :=
    .statement hx hparameters hcommand hvalue hgap hl hindent
  simpa using hopens.conforms hy houtdent rest

end

/-- The check fails with the violation, raised at the token of the index. A literal is taken before its value
is looked at. -/
def FailsAt (c : Convention) (tokens : List Token) (i : Nat) (v : Violation) : Prop :=
  ∃ log rest, layout c (complete tokens) = .error ⟨v, log⟩ rest ∧
    i + v.problem.taken + rest.length = (complete tokens).length

section
variable {c : Convention} {h : Header} {x s : List Token} {i : Nat} {v : Violation}

/-- A statement that fails goes well up to the token that it fails at, and stays stuck there. -/
private theorem FailsAt.exists_stuck (hfails : FailsAt c (x ++ s) i v) (hx : Declares c x h)
    (hparameters : h.parameters ≠ []) (hstart : StartsBinding c s) (hends : ∃ t ∈ s.getLast?, t.kind = .eos)
    (hclosed : v.problem ≠ .unclosedCode) :
    ∃ front t more, x ++ s = front ++ t :: more ∧ i = front.length ∧ v.position = t.position ∧
      (∃ h' y, ∀ rest, Conforms c (front ++ y ++ rest) h') ∧
      ∀ m', SharesFront (t :: more) m' → ∃ e rest, layout c (front ++ m') = .error e rest := by
  obtain ⟨command, s, rfl, hcommand, hvalue⟩ := hstart
  have hwhole : Rest (command :: s) (command :: s) := .all hends
  have hcomplete : complete (x ++ command :: s) = x ++ command :: s := by
    refine complete_of_ends ?_
    rwa [List.getLast?_append_of_ne_nil x hwhole.ne_nil]
  obtain ⟨log, rest, hlayout, hindex⟩ := hfails
  rw [hcomplete] at hlayout hindex
  cases decides_layout hx hparameters hcommand hvalue (hwhole.tail (by simp [hcommand])) with
  | @done h' y m hs _ _ hread =>
    rw [hs, hread m (.refl m)] at hlayout
    cases hlayout
  | unclosed hread he =>
    rw [hread] at hlayout
    cases hlayout
    exact absurd he hclosed
  | @stuck _ _ front m hs hm hread he hviable hstuck =>
    rw [hread] at hlayout
    cases hlayout
    obtain ⟨t, more, rfl⟩ := List.exists_cons_of_ne_nil hm.ne_nil
    have hlength : v.problem.taken + rest.length = (t :: more).length := by
      rw [he.rest_eq, List.length_drop]
      exact Nat.add_sub_cancel' (v.problem.taken_le.trans (Nat.le_add_left 1 more.length))
    rw [hs, List.length_append, Nat.add_assoc, hlength] at hindex
    exact ⟨front, t, more, hs, Nat.add_right_cancel hindex, he.position_eq, hviable, hstuck⟩

private theorem exists_validate_of_conforms (hconforms : ∀ rest, Conforms c (x ++ rest) h) :
    ∃ tokens, (∃ t ∈ tokens.getLast?, t.kind = .eos) ∧ x <+: tokens ∧ validate c tokens = .ok h := by
  let tokens := x ++ [Token.eos Position.start]
  have heos : ∃ t ∈ tokens.getLast?, t.kind = .eos := ⟨Token.eos Position.start, by simp [tokens], rfl⟩
  refine ⟨tokens, heos, List.prefix_append x _, validate_of_conforms ?_⟩
  rw [complete_of_ends heos]
  exact hconforms _

/-- Where a statement is stuck, no file is accepted that has the tokens in front and those looked at. -/
private theorem validate_ne_ok_of_stuck {front m tokens : List Token}
    (hstuck : ∀ m', SharesFront m m' → ∃ e rest, layout c (front ++ m') = .error e rest)
    (htokens : front ++ m.take 2 <+: tokens) : validate c tokens ≠ .ok h := by
  intro hok
  obtain ⟨others, rfl⟩ := htokens
  obtain ⟨more, hmore, -⟩ := exists_complete (front ++ m.take 2 ++ others)
  obtain ⟨s, haccepts⟩ := layout_ok_iff.2 (conforms_of_validate hok)
  obtain ⟨e, rest, herror⟩ := hstuck (m.take 2 ++ (others ++ more)) (List.prefix_append _ _)
  rw [hmore] at haccepts
  simp only [List.append_assoc] at haccepts
  rw [herror] at haccepts
  cases haccepts

/-- In a file whose header declares parameters, the tokens in front of the one that the statement fails at
begin a file that is accepted, and no file that goes on with that token and the one behind it is. -/
theorem failsAt_viable_prefix (hx : Declares c x h) (hparameters : h.parameters ≠ [])
    (hstart : StartsBinding c s) (hends : ∃ t ∈ s.getLast?, t.kind = .eos) (hfails : FailsAt c (x ++ s) i v)
    (hclosed : v.problem ≠ .unclosedCode) :
    (∃ t, (x ++ s)[i]? = some t ∧ v.position = t.position) ∧
    (∃ tokens h', (∃ t ∈ tokens.getLast?, t.kind = .eos) ∧ (x ++ s).take i <+: tokens ∧
      validate c tokens = .ok h') ∧
    ∀ tokens h', (x ++ s).take (i + 2) <+: tokens → validate c tokens ≠ .ok h' := by
  obtain ⟨front, t, more, hs, rfl, hposition, ⟨h', y, hy⟩, hstuck⟩ :=
    hfails.exists_stuck hx hparameters hstart hends hclosed
  rw [hs, List.take_left, List.take_length_add_append]
  refine ⟨⟨t, by simp, hposition⟩, ?_, fun tokens h' htokens => validate_ne_ok_of_stuck hstuck htokens⟩
  obtain ⟨tokens, heos, hbegins, hok⟩ := exists_validate_of_conforms hy
  exact ⟨tokens, h', heos, (List.prefix_append front y).trans hbegins, hok⟩

end

def numberDeclared : Header := ⟨["NetFusion"], ["Waits"], [⟨"Value", ["Number"], "nil", none, none⟩]⟩

/-- A file whose check of that number has another literal. -/
def wrongNumber : List Token := fileOf "Number" [⟨.number, "5", ⟨14, 23⟩⟩] ++ [Token.eos ⟨15, 1⟩]

set_option maxRecDepth 4000 in
private theorem layout_wrongNumber : layout .standard (complete wrongNumber) =
    .error ⟨⟨.wrongSentinel "Number" (.number "0"), ⟨14, 23⟩⟩, [.headerRead ["NetFusion"] 1]⟩
      (wrongNumber.drop 19) := by cbv

/-- The literal of a wrong value is the first token that cannot be right, though the check has taken it. -/
theorem failsAt_wrong_literal :
    let v : Violation := ⟨.wrongSentinel "Number" (.number "0"), ⟨14, 23⟩⟩
    FailsAt .standard wrongNumber 18 v ∧
      (∃ tokens h, wrongNumber.take 18 <+: tokens ∧ validate .standard tokens = .ok h) ∧
      ∀ tokens h, wrongNumber.take 20 <+: tokens → validate .standard tokens ≠ .ok h := by
  intro v
  have hx : Declares .standard (wrongNumber.take 6) numberDeclared :=
    .opening rfl rfl rfl rfl rfl (by cbv) rfl rfl
  have hstart : StartsBinding .standard (wrongNumber.drop 6) := ⟨⟨.command, "params", Position.start⟩, _, rfl, rfl, rfl⟩
  have hsplit : wrongNumber.take 6 ++ wrongNumber.drop 6 = wrongNumber := List.take_append_drop 6 wrongNumber
  have hfails : FailsAt .standard wrongNumber 18 v := ⟨_, _, layout_wrongNumber, rfl⟩
  obtain ⟨-, ⟨tokens, h, -, hfirst, hok⟩, hnone⟩ := failsAt_viable_prefix hx (by simp [numberDeclared])
    hstart ⟨_, rfl, rfl⟩ (by rwa [hsplit]) (by simp [v])
  rw [hsplit] at hfirst hnone
  exact ⟨hfails, ⟨tokens, h, hfirst, hok⟩, hnone⟩

end SqfLayout.Layout
