import SqfLayout.Proofs.Layout.EntryArray
import SqfLayout.Proofs.Layout.Rejection

/-! The literals that check types. A wrong token in the place of one is blamed, with the type that it was to
check, whatever stands behind it. -/
namespace SqfLayout.Layout
open TokenReader

/-- A token that the literal of a sentinel may begin with. -/
def Begins : Sentinel → Token → Prop
  | .emptyArray, t => t.kind = .leftBracket
  | .emptyCode, t => t.kind = .leftBrace
  | .command name, t => t.kind = .command ∧ t.value = name
  | .number text, t => t.kind = .number ∧ t.value = text
  | .string text, t => t.kind = .string ∧ t.value = text

/-- The entry that binds a parameter but for the checks of its types, cut behind the bracket that they stand in. -/
inductive BindsBeside (c : Convention) (p : Parameter) : List Token → Token → List Token → Parameter → Prop
  | entry {l name sep gap sep' gap' bracket r' r : Token} {e : Expression} {x z : List Token}
      (hl : l.kind = .leftBracket) (hname : name.kind = .string) (hsep : sep.kind = .comma)
      (hgap : gap.kind = .space) (hx : Expression.Derives (.expression e) x) (hsep' : sep'.kind = .comma)
      (hgap' : gap'.kind = .space) (hbracket : bracket.kind = .leftBracket) (hr' : r'.kind = .rightBracket)
      (hz : ChecksSizeOf c p.types z) (hr : r.kind = .rightBracket) :
      BindsBeside c p (l :: name :: sep :: gap :: x ++ [sep', gap']) bracket (r' :: z ++ [r])
        { p with name? := some name.value, value? := some e }

def passChecks (c : Convention) : List Text → TokenReader Unit
  | [] => pure ()
  | type :: rest => do
    checkType c type
    passFor .moreTypes .comma
    pass .space
    passChecks c rest

/-- The variable and the value of an entry, up to the first of its types. -/
def entryFront : TokenReader (Token × Expression) := do
  passFor .missingTypeCheck .leftBracket
  let name ← need .string
  pass .comma
  pass .space
  let value ← Expression.read
  passFor .missingTypeCheck .comma
  pass .space
  pass .leftBracket
  return (name, value)

/-- Reads an entry up to the check of one of its types, and tells the type. -/
def seekType (c : Convention) (p : Parameter) (j : Nat) : TokenReader (Option Text) := do
  let _ ← entryFront
  passChecks c (p.types.take j)
  return p.types[j]?

/-- Reads a file as its check does, up to the check of a type of a parameter. -/
def seekCheck (c : Convention) (i j : Nat) : TokenReader (Option Text) := do
  match ← seekEntry c i with
  | none => return none
  | some p => seekType c p j

section
variable {c : Convention} {h : Header} {v : Violation} {type : Text} {types : List Text} {sen : Sentinel}
  {t : Token} {tokens s m x y front : List Token} {j : Nat}

private theorem Spells.exists_begins (hx : Spells sen x) : ∃ t literal, x = t :: literal ∧ Begins sen t := by
  cases hx with
  | emptyArray hl => exact ⟨_, _, rfl, hl⟩
  | emptyCode hl => exact ⟨_, _, rfl, hl⟩
  | command ht => exact ⟨_, _, rfl, ht, rfl⟩
  | number ht => exact ⟨_, _, rfl, ht, rfl⟩
  | string ht => exact ⟨_, _, rfl, ht, rfl⟩

theorem sentinel_of_not_begins (type : Text) (ht : ¬ Begins sen t) :
    ∃ v : Violation, v.problem.message = (Hint.typeCheck type sen).message ∧ v.position = t.position ∧
      ∀ s, ∃ m, sentinel type sen (t :: s) = .error v m := by
  have hliteral {kind : Token.Kind} {value : Text} (hkind : kind ≠ .eos)
      (ht : ¬ (t.kind = kind ∧ t.value = value)) :
      ∃ v : Violation, v.problem.message = (Hint.typeCheck type sen).message ∧ v.position = t.position ∧
        ∀ s, ∃ m, literal kind value type sen (t :: s) = .error v m := by
    by_cases hk : t.kind = kind
    · have hvalue : t.value ≠ value := fun hvalue => ht ⟨hk, hvalue⟩
      exact ⟨_, rfl, rfl, fun s => ⟨s, literal_of_value_ne hk hkind hvalue⟩⟩
    · exact ⟨_, rfl, rfl, fun s => ⟨_, literal_of_kind_ne hk⟩⟩
  cases sen with
  | emptyArray => exact ⟨_, rfl, rfl, fun s => ⟨_, bind_of_error (passFor_of_ne ht)⟩⟩
  | emptyCode => exact ⟨_, rfl, rfl, fun s => ⟨_, bind_of_error (passFor_of_ne ht)⟩⟩
  | command name => exact hliteral (by decide) ht
  | number text => exact hliteral (by decide) ht
  | string text => exact hliteral (by decide) ht

/-- In front of the check of a type, the checks of the types before it are passed. What the check of the type
fails with, all checks do. -/
private theorem ChecksTypes.exists_passed (hy : ChecksTypes c types y) (hj : types[j]? = some type) :
    ∃ front x back, ChecksType c type x ∧ y = front ++ (x ++ back) ∧
      (∀ s, passChecks c (types.take j) (front ++ s) = .ok () s) ∧
      ∀ s m v, checkType c type s = .error v m → typeChecks c types (front ++ s) = .error v m := by
  induction hy generalizing j with
  | nil => simp at hj
  | @single first x hx =>
    match j with
    | 0 =>
      obtain rfl : first = type := by simpa using hj
      exact ⟨[], x, [], hx, by simp, fun s => rfl, fun s m v hfails => by rwa [typeChecks_single]⟩
    | j + 1 => simp at hj
  | @cons first types comma gap x y hx hcomma hgap htypes hy ih =>
    match j with
    | 0 =>
      obtain rfl : first = type := by simpa using hj
      refine ⟨[], x, comma :: gap :: y, hx, rfl, fun s => rfl, fun s m v hfails => ?_⟩
      rw [typeChecks_cons c first htypes]
      exact bind_of_error hfails
    | j + 1 =>
      obtain ⟨front, z, back, hz, rfl, hpass, hfails⟩ := ih (by simpa using hj)
      have hcheck (s : List Token) : checkType c first (x ++ s) = .ok () s :=
        checkType_ok_iff.2 ⟨x, hx, rfl⟩
      refine ⟨x ++ comma :: gap :: front, z, back, hz, by simp, fun s => ?_, fun s m v herror => ?_⟩
      · rw [List.append_assoc, List.take_succ_cons, passChecks, bind_of_ok (hcheck _)]
        exact (bind_of_ok (passFor_cons hcomma (by decide))).trans
          ((bind_of_ok (pass_cons hgap (by decide))).trans (hpass s))
      · rw [List.append_assoc, typeChecks_cons c first htypes, bind_of_ok (hcheck _)]
        exact (bind_of_ok (passFor_cons hcomma (by decide))).trans
          ((bind_of_ok (pass_cons hgap (by decide))).trans (hfails s m v herror))

theorem entry_eq_front (c : Convention) (p : Parameter) : entry c p = (do
    let (name, value) ← entryFront
    typeChecks c p.types
    pass .rightBracket
    sizeCheckOf c p.types
    pass .rightBracket
    return { p with name? := some name.value, value? := some value }) := by
  rw [entry_eq]
  unfold entryFront
  simp only [bind_assoc, pure_bind]

theorem binds_iff_beside {p bound : Parameter} : Binds c p x bound ↔ ∃ front bracket y back,
    BindsBeside c p front bracket back bound ∧ ChecksTypes c p.types y ∧ x = front ++ bracket :: (y ++ back) := by
  constructor
  · intro hx
    cases hx with
    | entry hl hname hsep hgap hx hsep' hgap' hl' hy hr' hz hr =>
      exact ⟨_, _, _, _, .entry hl hname hsep hgap hx hsep' hgap' hl' hr' hz hr, hy, by simp⟩
  · rintro ⟨_, _, _, _, hx, hy, rfl⟩
    cases hx with
    | entry hl hname hsep hgap hx hsep' hgap' hl' hr' hz hr =>
      simpa using Binds.entry hl hname hsep hgap hx hsep' hgap' hl' hy hr' hz hr

theorem BindsBeside.exists_front {p bound : Parameter} {bracket : Token} (hx : BindsBeside c p x bracket y bound) :
    ∃ r, ∀ s, entryFront (x ++ bracket :: s) = .ok r s := by
  cases hx with
  | @entry l name sep gap sep' gap' _ _ _ e x z hl hname hsep hgap hx hsep' hgap' hl' =>
    refine ⟨(name, e), fun s => ?_⟩
    have hstop : ¬ Expression.Continues (sep' :: gap' :: bracket :: s) :=
      Expression.not_continues_append Expression.filler_nil (by simp [hsep']) (by simp [hsep'])
    have hread : Expression.read (x ++ sep' :: gap' :: bracket :: s) = .ok e (sep' :: gap' :: bracket :: s) :=
      Expression.read_eq_ok_iff.2 ⟨x, hx, hstop, rfl⟩
    unfold entryFront
    simp only [List.cons_append, List.append_assoc, List.nil_append]
    rw [bind_of_ok (passFor_cons hl (by decide)), bind_of_ok ((need_ok_iff (by decide)).2 ⟨rfl, hname⟩),
      bind_of_ok (pass_cons hsep (by decide)), bind_of_ok (pass_cons hgap (by decide)), bind_of_ok hread,
      bind_of_ok (passFor_cons hsep' (by decide)), bind_of_ok (pass_cons hgap' (by decide)),
      bind_of_ok (pass_cons hl' (by decide))]
    rfl

/-- An entry is read up to the check of any of its types. What that check fails with, the entry does. -/
theorem Binds.exists_check {p bound : Parameter} (hx : Binds c p x bound) (hj : p.types[j]? = some type) :
    ∃ front y back, ChecksType c type y ∧ x = front ++ (y ++ back) ∧
      (∀ s, seekType c p j (front ++ s) = .ok (some type) s) ∧
      ∀ s m v, checkType c type s = .error v m → Layout.entry c p (front ++ s) = .error v m := by
  obtain ⟨named, bracket, _, back, hbeside, hy, rfl⟩ := binds_iff_beside.1 hx
  obtain ⟨r, hnamed⟩ := hbeside.exists_front
  obtain ⟨before, y, others, hchecks, rfl, hpass, hfails⟩ := hy.exists_passed hj
  refine ⟨named ++ bracket :: before, y, others ++ back, hchecks, by simp, fun s => ?_, fun s m v herror => ?_⟩
  · unfold seekType
    rw [List.append_assoc, List.cons_append, bind_of_ok (hnamed _), bind_of_ok (hpass s), hj]
    rfl
  · rw [List.append_assoc, List.cons_append, entry_eq_front, bind_of_ok (hnamed _)]
    exact bind_of_error (hfails s m v herror)

theorem Entered.fails {done later : List Parameter} {p : Parameter} (hfront : Entered c h done p later front)
    (hfails : ∀ log, Fails (entries c log (p :: later)) v s) : Fails (layout c) v (front ++ s) := by
  induction hfront generalizing s with
  | @first p later command gap l indent x hx hparameters hcommand hvalue hgap hl hindent =>
    have hopens : Opens c (x ++ [command, gap, l, indent]) h :=
      .statement hx (by simp [hparameters]) hcommand hvalue hgap hl hindent
    obtain ⟨log, heq⟩ := hopens.layout_eq s
    obtain ⟨log', rest, herror⟩ : Fails (boundEntries c log h.parameters) v s := by
      rw [hparameters]
      exact (hfails log).bind
    exact ⟨log', rest, heq.trans (bind_of_error herror)⟩
  | @next done later p p' bound comma line front x _ hx hcomma hline ih =>
    rw [List.append_assoc, List.append_assoc]
    exact ih (hx.fails_entries hcomma hline (by simp) hfails)

private theorem Conforms.of_complete (hx : Conforms c (complete tokens) h) (hbinds : h.parameters ≠ []) :
    Conforms c tokens h := by
  obtain ⟨more, hmore, heos⟩ := exists_complete tokens
  rw [hmore] at hx
  generalize hs : tokens ++ more = s at hx
  cases hx with
  | plain _ hnone => exact absurd hnone hbinds
  | @binding command gap l indent outdent x y rest h bound hx hcommand hvalue hgap hl hindent hy houtdent =>
    have hout (hmem : outdent ∈ more) : False := by simpa [houtdent] using heos outdent hmem
    obtain ⟨z, -, hz⟩ | ⟨z, htokens, hz⟩ := List.append_eq_append_iff.1 hs
    · exact (hout (by simp [hz])).elim
    · cases z with
      | nil => exact (hout (by rw [List.nil_append] at hz; simp [← hz])).elim
      | cons t z =>
        obtain ⟨rfl, -⟩ := List.cons.inj hz
        rw [htokens]
        exact .binding hx hcommand hvalue hgap hl hindent hy houtdent

/-- In an accepted file, any other token in the place of the first one of a literal is blamed, with the type
that the literal checks, whatever else there is. -/
theorem validate_wrong_literal {i : Nat} (hok : validate c tokens = .ok h) (hi : i < h.parameters.length)
    (hj : h.parameters[i].types[j]? = some type) (hsen : c.sentinel? type = some sen) :
    ∃ front t literal rest, tokens = front ++ t :: (literal ++ rest) ∧ Spells sen (t :: literal) ∧
      seekCheck c i j tokens = .ok (some type) (t :: (literal ++ rest)) ∧
      ∀ t', ¬ Begins sen t' → ∃ v, validate c (front ++ t' :: (literal ++ rest)) = .error v ∧
        v.problem.message = "Type " ++ Text.lowercase type ++ " in header, check for " ++ sen.describe ∧
        v.position = t'.position := by
  have hbinds : h.parameters ≠ [] := List.ne_nil_of_length_pos (Nat.zero_lt_of_lt hi)
  obtain ⟨declared, done, p, later, front, x, bound, more, bounds, hfront, hx, -, rfl, hparameters, rfl⟩ :=
    ((conforms_of_validate hok).of_complete hbinds).exists_entered hi
  have htypes : h.parameters[done.length].types = p.types := by
    simp only [hparameters, List.getElem_append_right (Nat.le_refl _), Nat.sub_self, List.getElem_cons_zero]
    exact hx.types_eq
  rw [htypes] at hj
  obtain ⟨before, y, back, hy, rfl, hseek, hfails⟩ := hx.exists_check hj
  have hspells : Spells sen y := by rwa [ChecksType, hsen] at hy
  obtain ⟨t, literal, rfl, -⟩ := hspells.exists_begins
  refine ⟨front ++ before, t, literal, back ++ more, by simp, hspells, ?_, fun t' ht' => ?_⟩
  · unfold seekCheck
    rw [bind_of_ok (hfront.seekEntry_eq _)]
    simpa using hseek (t :: (literal ++ (back ++ more)))
  · obtain ⟨v, hmessage, hposition, herror⟩ := sentinel_of_not_begins type ht'
    refine ⟨v, validate_of_fails fun rest => ?_, hmessage, hposition⟩
    obtain ⟨m, hm⟩ := herror (literal ++ (back ++ (more ++ rest)))
    have hcheck : checkType c type (t' :: (literal ++ (back ++ (more ++ rest)))) = .error v m := by
      rwa [checkType, hsen]
    simp only [List.append_assoc, List.cons_append]
    exact hfront.fails (fails_entries_of_entry (hfails _ m v hcheck) later)

end

/-- In a file whose second type is a number, whatever stands for its literal is blamed, be it another number
or the end of the file. -/
theorem validate_wrong_literal_mixed :
    validate .standard mixedFile = .ok (headerOfFile ["Anything", "Number"]) ∧
      ∃ front t rest, mixedFile = front ++ t :: rest ∧ Begins (.number "0") t ∧
        ∀ t', ¬ Begins (.number "0") t' → ∃ v, validate .standard (front ++ t' :: rest) = .error v ∧
          v.problem.message = "Type number in header, check for 0" ∧ v.position = t'.position := by
  have hok : validate .standard mixedFile = .ok (headerOfFile ["Anything", "Number"]) := by cbv
  refine ⟨hok, ?_⟩
  have htype : (headerOfFile ["Anything", "Number"]).parameters[0].types[1]? = some (Text.ofString "Number") := rfl
  have hsentinel : Convention.standard.sentinel? "Number" = some (.number "0") := by decide +kernel
  obtain ⟨front, t, literal, rest, hsplit, hspells, -, hreplaced⟩ :=
    validate_wrong_literal hok (by decide) htype hsentinel
  have hmessage : ("Type " ++ Text.lowercase "Number" ++ " in header, check for " ++
      Sentinel.describe (.number "0") : Text) = "Type number in header, check for 0" := by decide +kernel
  rw [hmessage] at hreplaced
  obtain ⟨_, _, ⟨⟩, hbegins⟩ := hspells.exists_begins
  exact ⟨front, t, literal ++ rest, hsplit, hbegins, hreplaced⟩

end SqfLayout.Layout
