import Mathlib
import SqfLayout.Proofs.Layout.Entries

/-! Checks that fail: what they make of a token that is not the required one, and of a statement with fewer
entries than the header has parameters, or more. -/
namespace SqfLayout.Layout
open TokenReader

section
variable {α β : Type} {c : Convention} {h : Header} {v : Violation} {log : List Event} {kind : Token.Kind}
  {hint : Hint} {t : Token} {s m tokens front : List Token} {ps : List Parameter}

theorem logged_apply (log : List Event) (r : TokenReader α) (s : List Token) :
    logged log r s = match r s with
      | .ok a m => .ok a m
      | .error v m => .error ⟨v, log⟩ m := by
  unfold logged EStateM.adaptExcept
  cases r s <;> rfl

theorem passFor_of_ne (ht : t.kind ≠ kind) :
    passFor hint kind (t :: s) = .error ⟨.mismatch kind t (some hint), t.position⟩ (t :: s) :=
  bind_of_error (expect_of_ne ht)

theorem literal_of_kind_ne {value type : Text} {sen : Sentinel} (ht : t.kind ≠ kind) :
    literal kind value type sen (t :: s) =
      .error ⟨.mismatch kind t (some (.typeCheck type sen)), t.position⟩ (t :: s) :=
  bind_of_error (expect_of_ne ht)

theorem literal_of_value_ne {value type : Text} {sen : Sentinel} (ht : t.kind = kind) (hkind : kind ≠ .eos)
    (hvalue : t.value ≠ value) :
    literal kind value type sen (t :: s) = .error ⟨.wrongSentinel type sen, t.position⟩ s := by
  unfold literal
  rw [bind_of_ok ((expect_ok_iff hkind).2 ⟨rfl, ht⟩)]
  exact congrFun (if_pos hvalue) s

/-- A check fails with a violation, whatever it has logged. -/
def Fails (r : Checker α) (v : Violation) (s : List Token) : Prop :=
  ∃ log rest, r s = .error ⟨v, log⟩ rest

theorem Fails.bind {r : Checker α} {f : α → Checker β} (h : Fails r v s) : Fails (r >>= f) v s := by
  obtain ⟨log, rest, h⟩ := h
  exact ⟨log, rest, bind_of_error h⟩

private theorem Fails.behind {r : Checker α} {f : α → Checker β} {a : α} (hr : r s = .ok a m)
    (h : Fails (f a) v m) : Fails (r >>= f) v s := by
  obtain ⟨log, rest, h⟩ := h
  exact ⟨log, rest, (bind_of_ok hr).trans h⟩

private theorem fails_logged {r : TokenReader α} (h : r s = .error v m) : Fails (logged log r) v s :=
  ⟨log, m, by rw [logged_apply, h]⟩

theorem fails_entries_of_entry {p : Parameter} (h : entry c p s = .error v m) (ps : List Parameter)
    (log : List Event) : Fails (entries c log (p :: ps)) v s := by
  have hentry : Fails (logged log (entry c p)) v s := fails_logged h
  by_cases hps : ps = []
  · rw [hps, entries_single]
    exact hentry.bind
  · rw [entries_cons c log p hps]
    exact hentry.bind

theorem Binds.fails_entries {p bound : Parameter} {x : List Token} {comma line : Token}
    (hx : Binds c p x bound) (hcomma : comma.kind = .comma) (hline : line.kind = .newline) (hps : ps ≠ [])
    (hfails : ∀ log, Fails (entries c log ps) v s) (log : List Event) :
    Fails (entries c log (p :: ps)) v (x ++ comma :: line :: s) := by
  rw [entries_cons c log p hps]
  refine .behind (logged_ok_iff.2 (entry_ok_iff.2 ⟨x, hx, rfl⟩)) ?_
  refine .behind (a := ()) (m := s) (logged_ok_iff.2 ?_) (.bind (hfails _))
  exact (bind_of_ok (passFor_cons hcomma (by simp))).trans (pass_cons hline (by simp))

theorem exists_complete (tokens : List Token) :
    ∃ more, complete tokens = tokens ++ more ∧ ∀ t ∈ more, t.kind = .eos := by
  unfold complete
  split
  · rename_i hnone
    rw [List.getLast?_eq_none_iff.1 hnone]
    exact ⟨[Token.eos Position.start], rfl, by simp [Token.eos]⟩
  · split
    · exact ⟨[], (List.append_nil tokens).symm, by simp⟩
    · exact ⟨_, rfl, by simp [Token.eos]⟩

/-- A failure that does not depend on what follows is the answer. -/
theorem validate_of_fails (h : ∀ more, Fails (layout c) v (tokens ++ more)) :
    validate c tokens = .error v := by
  obtain ⟨more, hmore, -⟩ := exists_complete tokens
  obtain ⟨log, rest, hlayout⟩ := h more
  unfold validate check
  rw [hmore, hlayout]
  rfl

/-- The tokens up to the first entry of a file that binds parameters, and the header that declares them. -/
inductive Opens (c : Convention) : List Token → Header → Prop
  | statement {x : List Token} {command gap l indent : Token} {h : Header} (hx : Declares c x h)
      (hparameters : h.parameters ≠ []) (hcommand : command.kind = .command)
      (hvalue : command.value = c.parametersCommand) (hgap : gap.kind = .space) (hl : l.kind = .leftBracket)
      (hindent : indent.kind = .indent) : Opens c (x ++ [command, gap, l, indent]) h

/-- What a statement binds, once it is opened. -/
def boundEntries (c : Convention) (log : List Event) (ps : List Parameter) : Checker (List Parameter) := do
  let bound ← entries c log ps
  logged (log ++ bound.map boundEvent) (passFor .missingParameter .outdent)
  return bound

/-- How a statement is opened behind its command. -/
def openStatement : TokenReader Unit := do
  pass .space
  pass .leftBracket
  passFor .indentParameter .indent

theorem binding_command (ht : t.kind ≠ .eos) :
    binding c log ps (t :: s) = (logged log openStatement >>= fun _ => boundEntries c log ps) s := by
  refine bind_eq_bind (r := logged log (take >>= fun _ => openStatement)) ?_ fun _ => boundEntries c log ps
  rw [logged_apply, logged_apply, bind_of_ok (take_cons ht)]

theorem Opens.layout_eq (hfront : Opens c front h) (s : List Token) : ∃ log, layout c (front ++ s) =
    (boundEntries c log h.parameters >>= fun bound => pure { h with parameters := bound }) s := by
  cases hfront with
  | @statement x command gap l indent _ hx hparameters hcommand hvalue hgap hl hindent =>
    have hopen : openStatement (gap :: l :: indent :: s) = .ok () s := by
      unfold openStatement
      rw [bind_of_ok (pass_cons hgap (by simp)), bind_of_ok (pass_cons hl (by simp)),
        passFor_cons hindent (by simp)]
    refine ⟨[.headerRead h.authors h.parameters.length], ?_⟩
    rw [List.append_assoc]
    refine (layout_of_declares hx hparameters ⟨command, _, rfl, hcommand, hvalue⟩).trans (bind_eq_bind ?_ _)
    refine (binding_command (by simp [hcommand])).trans (bind_of_ok (m := s) (a := ()) ?_)
    exact logged_ok_iff.2 hopen

private theorem Opens.validate_error (hfront : Opens c front h)
    (hfails : ∀ log more, Fails (boundEntries c log h.parameters) v (s ++ more)) :
    validate c (front ++ s) = .error v := by
  refine validate_of_fails fun more => ?_
  obtain ⟨log, heq⟩ := hfront.layout_eq (s ++ more)
  obtain ⟨log', rest, hbound⟩ := (hfails log more).bind (f := fun bound =>
    pure { h with parameters := bound })
  exact ⟨log', rest, by rw [List.append_assoc, heq, hbound]⟩

end

/-- Entries on lines of their own: each but the last has a comma and a line end behind it. The commas are kept
in a list. -/
inductive Lines : List (List Token) → List Token → List Token → Prop
  | single (x : List Token) : Lines [x] [] x
  | cons {entries : List (List Token)} {commas x y : List Token} {comma line : Token}
      (hcomma : comma.kind = .comma) (hline : line.kind = .newline) (hy : Lines entries commas y) :
      Lines (x :: entries) (comma :: commas) (x ++ comma :: line :: y)

section
variable {c : Convention} {h : Header} {p : Parameter} {ps : List Parameter} {entries : List (List Token)}
  {commas x y front : List Token} {outdent : Token}

/-- An entry that is taken whole for a parameter. -/
def Accepts (c : Convention) (p : Parameter) (x : List Token) : Prop := ∃ bound, entry c p x = .ok bound []

theorem accepts_iff : Accepts c p x ↔ ∃ bound, Binds c p x bound := by
  unfold Accepts
  simp [entry_ok_iff]

private theorem Lines.exists_bindsAll (hlines : Lines entries commas y) (hps : ps ≠ [])
    (hle : ps.length ≤ entries.length) (haccepts : ∀ q ∈ ps.zip entries, Accepts c q.1 q.2) :
    ∃ z bound, BindsAll c ps z bound ∧ (ps.length = entries.length → y = z) ∧
      (ps.length < entries.length → ∃ comma more, commas[ps.length - 1]? = some comma ∧
        comma.kind = .comma ∧ y = z ++ comma :: more) := by
  induction hlines generalizing ps with
  | single x =>
    match ps with
    | [p] =>
      obtain ⟨bound, hx⟩ := accepts_iff.1 (haccepts (p, x) (by simp))
      exact ⟨x, [bound], .single hx, fun _ => rfl, fun hlt => by simp at hlt⟩
    | _ :: _ :: _ => simp at hle
  | @cons entries commas x y comma line hcomma hline hy ih =>
    match ps with
    | [p] =>
      obtain ⟨bound, hx⟩ := accepts_iff.1 (haccepts (p, x) (by simp))
      refine ⟨x, [bound], .single hx, fun hlength => ?_, fun _ => ⟨comma, _, rfl, hcomma, rfl⟩⟩
      cases hy <;> simp at hlength
    | p :: p' :: ps =>
      obtain ⟨bound, hx⟩ := accepts_iff.1 (haccepts (p, x) (by simp))
      have hps : p' :: ps ≠ [] := by simp
      obtain ⟨z, bounds, hz, hsame, hmore⟩ := ih hps (by simpa using hle)
        fun q hq => haccepts q (List.mem_cons_of_mem _ hq)
      refine ⟨_, _, .cons hx hcomma hline hz, fun hlength => ?_, fun hlength => ?_⟩
      · rw [hsame (by simpa using hlength)]
      · obtain ⟨comma', more, hget, hkind, rfl⟩ := hmore (by simpa using hlength)
        exact ⟨comma', more, by simpa using hget, hkind, by simp⟩

private theorem Lines.fails_entries (hlines : Lines entries commas y) (hlt : entries.length < ps.length)
    (haccepts : ∀ q ∈ ps.zip entries, Accepts c q.1 q.2) (houtdent : outdent.kind = .outdent)
    (log : List Event) (rest : List Token) : Fails (Layout.entries c log ps)
      ⟨.mismatch .comma outdent (some .moreParameters), outdent.position⟩ (y ++ outdent :: rest) := by
  induction hlines generalizing ps log with
  | single x =>
    match ps with
    | p :: p' :: ps =>
      obtain ⟨bound, hx⟩ := accepts_iff.1 (haccepts (p, x) (by simp))
      rw [entries_cons c log p (by simp)]
      have hcomma : passFor .moreParameters .comma (outdent :: rest) = .error _ _ :=
        passFor_of_ne (by simp [houtdent])
      refine .behind (logged_ok_iff.2 (entry_ok_iff.2 ⟨x, hx, rfl⟩)) (.bind ?_)
      exact fails_logged (bind_of_error hcomma)
    | [p] => simp at hlt
    | [] => simp at hlt
  | @cons entries commas x y comma line hcomma hline hy ih =>
    match ps with
    | p :: ps =>
      obtain ⟨bound, hx⟩ := accepts_iff.1 (haccepts (p, x) (by simp))
      have hlater : entries.length < ps.length := by simpa using hlt
      have hps : ps ≠ [] := List.ne_nil_of_length_pos (Nat.zero_lt_of_lt hlater)
      rw [List.append_assoc]
      exact hx.fails_entries hcomma hline hps
        (fun log => ih hlater (fun q hq => haccepts q (List.mem_cons_of_mem _ hq)) log) log
    | [] => simp at hlt

private theorem BindsAll.fails {bound : List Parameter} {t : Token} (hy : BindsAll c ps y bound)
    (ht : t.kind ≠ .outdent) (log : List Event) (rest : List Token) : Fails (boundEntries c log ps)
      ⟨.mismatch .outdent t (some .missingParameter), t.position⟩ (y ++ t :: rest) := by
  obtain ⟨p, ps, rfl⟩ := hy.exists_cons
  exact .behind (entries_ok_iff.2 ⟨y, hy, rfl⟩) (.bind (fails_logged (passFor_of_ne ht)))

theorem Opens.conforms {bound : List Parameter} (hfront : Opens c front h)
    (hy : BindsAll c h.parameters y bound) (houtdent : outdent.kind = .outdent) (rest : List Token) :
    Conforms c (front ++ (y ++ outdent :: rest)) { h with parameters := bound } := by
  cases hfront with
  | @statement x command gap l indent _ hx _ hcommand hvalue hgap hl hindent =>
    have hconforms : Conforms c (x ++ command :: gap :: l :: indent :: y ++ outdent :: rest) _ :=
      .binding hx hcommand hvalue hgap hl hindent hy houtdent
    simpa using hconforms

/-- A statement whose entries fit their parameters, as far as there are both, is accepted if there are as many
of one as of the other. If entries are missing, the token behind the last one is blamed; if there are more, the
comma behind the entry of the last parameter is, whatever the further entries hold. -/
theorem validate_lines (hfront : Opens c front h) (hlines : Lines entries commas y)
    (houtdent : outdent.kind = .outdent) (haccepts : ∀ q ∈ h.parameters.zip entries, Accepts c q.1 q.2)
    (rest : List Token) :
    (entries.length = h.parameters.length →
      ∃ bound, validate c (front ++ (y ++ outdent :: rest)) = .ok { h with parameters := bound }) ∧
    (entries.length < h.parameters.length → ∃ v, validate c (front ++ (y ++ outdent :: rest)) = .error v ∧
      v.problem.message = "Header has more parameters" ∧ v.position = outdent.position) ∧
    (h.parameters.length < entries.length → ∃ comma v, commas[h.parameters.length - 1]? = some comma ∧
      validate c (front ++ (y ++ outdent :: rest)) = .error v ∧
      v.problem.message = "Missing parameter in header" ∧ v.position = comma.position) := by
  have hparameters : h.parameters ≠ [] := by cases hfront; assumption
  refine ⟨fun hlength => ?_, fun hlt => ?_, fun hlt => ?_⟩
  · obtain ⟨z, bound, hz, hsame, -⟩ := hlines.exists_bindsAll hparameters (Nat.le_of_eq hlength.symm) haccepts
    obtain rfl := hsame hlength.symm
    obtain ⟨more, hmore, -⟩ := exists_complete (front ++ (y ++ outdent :: rest))
    refine ⟨bound, validate_of_conforms ?_⟩
    rw [hmore]
    simpa using hfront.conforms hz houtdent (rest ++ more)
  · let missing : Violation := ⟨.mismatch .comma outdent (some .moreParameters), outdent.position⟩
    refine ⟨missing, hfront.validate_error fun log more => ?_, rfl, rfl⟩
    rw [List.append_assoc]
    exact (hlines.fails_entries hlt haccepts houtdent log (rest ++ more)).bind
  · obtain ⟨z, bound, hz, -, hmore⟩ := hlines.exists_bindsAll hparameters (Nat.le_of_lt hlt) haccepts
    obtain ⟨comma, others, hget, hcomma, rfl⟩ := hmore hlt
    let surplus : Violation := ⟨.mismatch .outdent comma (some .missingParameter), comma.position⟩
    refine ⟨comma, surplus, hget, hfront.validate_error fun log more => ?_, rfl, rfl⟩
    simpa using hz.fails (by simp [hcomma]) log (others ++ outdent :: (rest ++ more))

end

/-- The tokens up to the first entry of a file whose header has the given lines for its parameters. -/
def tokensAbove (parameters : Text) : List Token :=
  let token (kind : Token.Kind) (value : Text) : Token := ⟨kind, value, Position.start⟩
  [token .preprocessorStart "#", token .preprocessorInclude "macros.hpp", token .newline "\n",
    token .blockComment ("\n    Arma At War\n\n    Author: NetFusion\n\n    Description:\n    Waits\n\n" ++
      "    Parameter(s):\n" ++ parameters ++ "\n"),
    token .blank "", token .newline "\n", token .command "params", token .space " ",
    token .leftBracket "[", token .indent ""]

def tokensOfEntry (name : Text) (value check : Token) : List Token :=
  let token (kind : Token.Kind) (value : Text) : Token := ⟨kind, value, Position.start⟩
  [token .leftBracket "[", token .string name, token .comma ",", token .space " ", value,
    token .comma ",", token .space " ", token .leftBracket "[", check, token .rightBracket "]",
    token .rightBracket "]"]

def targetDeclared : Parameter := ⟨"Target", ["Object"], "objNull", none, none⟩

def countDeclared : Parameter := ⟨"Count", ["Number"], "0", none, none⟩

def pairDeclared : Header := ⟨["NetFusion"], ["Waits"], [targetDeclared, countDeclared]⟩

def tokensAbovePair : List Token :=
  tokensAbove ("    0: Target <Object> (Default: objNull)\n" ++ "    1: Count <Number> (Default: 0)\n")

private theorem opens_pair : Opens .standard tokensAbovePair pairDeclared :=
  .statement (x := [_, _, _, _, _, _])
    (.opening rfl rfl rfl rfl rfl (by cbv) rfl rfl) (by simp [pairDeclared]) rfl rfl rfl rfl rfl

def targetEntry : List Token :=
  let null : Token := ⟨.command, "objNull", Position.start⟩
  tokensOfEntry "_target" null null

def countEntry : List Token :=
  let zero : Token := ⟨.number, "0", Position.start⟩
  tokensOfEntry "_count" zero zero

/-- Both entries are accepted; without the second, the closing token is refused, and before a third one, its
comma. -/
theorem validate_lines_pair :
    let comma (n : Nat) : Token := ⟨.comma, ",", ⟨n, 40⟩⟩
    let line : Token := ⟨.newline, "\n", Position.start⟩
    let outdent : Token := ⟨.outdent, [], ⟨19, 1⟩⟩
    (∃ bound, validate .standard (tokensAbovePair ++ (targetEntry ++ comma 17 :: line :: countEntry ++ [outdent])) =
      .ok { pairDeclared with parameters := bound }) ∧
    (∃ v, validate .standard (tokensAbovePair ++ (targetEntry ++ [outdent])) = .error v ∧
      v.problem.message = "Header has more parameters" ∧ v.position = ⟨19, 1⟩) ∧
    ∃ v, validate .standard (tokensAbovePair ++
        (targetEntry ++ comma 17 :: line :: (countEntry ++ comma 18 :: line :: [comma 19]) ++ [outdent])) =
      .error v ∧ v.problem.message = "Missing parameter in header" ∧ v.position = ⟨18, 40⟩ := by
  intro comma line outdent
  have htarget : Accepts .standard targetDeclared targetEntry :=
    ⟨{ targetDeclared with name? := some "_target", value? := some (.command "objNull") }, by cbv⟩
  have hcount : Accepts .standard countDeclared countEntry :=
    ⟨{ countDeclared with name? := some "_count", value? := some (.number "0") }, by cbv⟩
  have hboth (others : List (List Token)) :
      ∀ q ∈ pairDeclared.parameters.zip (targetEntry :: countEntry :: others), Accepts .standard q.1 q.2 := by
    simp [pairDeclared, htarget, hcount]
  have hone : ∀ q ∈ pairDeclared.parameters.zip [targetEntry], Accepts .standard q.1 q.2 := by
    simp [pairDeclared, htarget]
  have htwo : Lines [targetEntry, countEntry] [comma 17] (targetEntry ++ comma 17 :: line :: countEntry) :=
    .cons rfl rfl (.single _)
  have hthree : Lines [targetEntry, countEntry, [comma 19]] [comma 17, comma 18]
      (targetEntry ++ comma 17 :: line :: (countEntry ++ comma 18 :: line :: [comma 19])) :=
    .cons rfl rfl (.cons rfl rfl (.single _))
  have houtdent : outdent.kind = .outdent := rfl
  refine ⟨?_, ?_, ?_⟩
  · exact (validate_lines opens_pair htwo houtdent (hboth []) []).1 rfl
  · exact (validate_lines opens_pair (.single targetEntry) houtdent hone []).2.1 (by decide)
  · obtain ⟨t, v, ht, hv⟩ :=
      (validate_lines opens_pair hthree houtdent (hboth [[comma 19]]) []).2.2 (by decide)
    obtain rfl : comma 18 = t := by simpa [pairDeclared] using ht
    exact ⟨v, hv⟩

end SqfLayout.Layout
