import Mathlib.Tactic.SplitIfs
import SqfLayout.LoadingFailure
import SqfLayout.Proofs.Convention.Reading

/-! Loading a convention takes back what was written, whatever the order of the fields and whatever stands between
them. Of fields that are not there the first one is named. -/
namespace SqfLayout
namespace Convention
open Json (IsFrame IsGap IsString IsTail)

namespace Decoder

def Partial.of (c : Convention) (given : List (Option Field)) : Partial where
  title? := if given.contains (some .title) then some c.title else none
  authors? := if given.contains (some .authors) then some c.authors else none
  types? := if given.contains (some .types) then some c.types else none
  header? := if given.contains (some .header) then some c.header else none
  parametersCommand? := if given.contains (some .parametersCommand) then some c.parametersCommand else none
  sentinels? := if given.contains (some .sentinels) then some c.sentinels else none

def Partial.put (p : Partial) (c : Convention) : Field → Partial
  | .title => { p with title? := some c.title }
  | .authors => { p with authors? := some c.authors }
  | .types => { p with types? := some c.types }
  | .header => { p with header? := some c.header }
  | .parametersCommand => { p with parametersCommand? := some c.parametersCommand }
  | .sentinels => { p with sentinels? := some c.sentinels }

section
variable {c : Convention} {given members : List (Option Field)} {f : Field} {m : Option Field} {t s gap rest : Text}

private theorem of_nil : Partial.of c [] = .empty := rfl

private theorem of_some_cons : Partial.of c (some f :: given) = (Partial.of c given).put c f := by
  cases f <;> simp [Partial.of, Partial.put]

private theorem of_none_cons : Partial.of c (none :: given) = Partial.of c given := by
  simp [Partial.of]

private theorem has_of : (Partial.of c given).has f = given.contains (some f) := by
  have hsome {α : Type} (b : Bool) (a : α) : (if b then some a else none).isSome = b := by cases b <;> rfl
  cases f <;> exact hsome _ _

private theorem bind_require {α β : Type} (f : Field) (a : α) (g : α → Decoder β) (s : Text) :
    (Partial.require f (if given.contains (some f) then some a else none) >>= g) s =
      if given.contains (some f) then g a s else .error ⟨.missingField f, none⟩ s := by
  split <;> rfl

private theorem convention_of (s : Text) : (Partial.of c given).convention s =
    match missing? given with
    | none => .ok c s
    | some f => .error ⟨.missingField f, none⟩ s := by
  simp only [Partial.convention, Partial.of, bind_require]
  simp only [List.contains_iff_mem, missing?, Field.all, List.find?_cons]
  -- the fields are asked for in the order of the search, so both sides stop at the same one
  split_ifs <;> simp [*]
  rfl

private theorem readField_of (h : IsField c f t) :
    Reads ((Partial.of c given).readField f) t (Partial.of c (some f :: given)) := by
  have hstrings {ts : List Text} (h : IsFrame .list IsString t ts) : Reads (list text) t ts :=
    reads_list (fun _ _ => reads_text) h
  rw [of_some_cons]
  cases f with
  | title => exact (reads_text h).map fun v => { Partial.of c given with title? := some v }
  | authors => exact (hstrings h).map fun v => { Partial.of c given with authors? := some v }
  | types => exact (hstrings h).map fun v => { Partial.of c given with types? := some v }
  | header => exact (reads_text h).map fun v => { Partial.of c given with header? := some v }
  | parametersCommand => exact (reads_text h).map fun v => { Partial.of c given with parametersCommand? := some v }
  | sentinels =>
    exact (reads_list (fun _ _ => reads_entry) h).map fun v => { Partial.of c given with sentinels? := some v }

private theorem ofName?_field (f : Field) : Field.ofName? f.name = some f := by cases f <;> decide +kernel

private theorem ofName?_other {name : Text} (h : ∀ f : Field, f.name ≠ name) : Field.ofName? name = none :=
  List.find?_eq_none.2 fun f _ => by simpa using h f

private theorem next_member {first : Bool} {lead : Text} (hlead : Lead first lead) (hgap : IsGap gap)
    (h : IsMember c t m) (hnew : ∀ f ∈ m, some f ∉ given) (hrest : Json.Ends rest) :
    (Partial.of c given).next first (lead ++ (gap ++ (t ++ rest))) = .ok (Partial.of c (m :: given), true) rest := by
  have hkey {key name : Text} (h : IsString key name) (s : Text) : Decoder.key (key ++ s) = .ok name s := eat_string h s
  have hhas {key name : Text} (h : IsString key name) (s : Text) :
      hasKey first (lead ++ (gap ++ (key ++ s))) = .ok true (key ++ s) := by
    obtain ⟨w, rfl⟩ := exists_quote h
    exact hasKey_lead hlead hgap (w ++ s)
  cases h with
  | @field key gap' gap'' v f hname hgap' hgap'' hv =>
    have hwhole : key ++ (gap' ++ ':' :: (gap'' ++ v)) ++ rest = key ++ (gap' ++ ':' :: (gap'' ++ (v ++ rest))) := by
      simp
    have hfresh : (Partial.of c given).has f = false := by
      rw [has_of, ← Bool.not_eq_true, List.contains_iff_mem]
      exact hnew f rfl
    rw [hwhole, Partial.next, bind_of_ok (hhas hname _), if_pos rfl, bind_of_ok (hkey hname _), ofName?_field]
    dsimp only
    rw [if_neg (by simp [hfresh]), bind_of_ok (colon_gap hgap' _), bind_of_ok ((readField_of hv).reads _ _ hgap'')]
    rfl
  | @other key gap' gap'' v name hname hother hgap' hgap'' hv =>
    have hwhole : key ++ (gap' ++ ':' :: (gap'' ++ v)) ++ rest = key ++ (gap' ++ ':' :: (gap'' ++ (v ++ rest))) := by
      simp
    have hskip : lift (fun s => (Json.skip s).map ((), ·)) (gap'' ++ (v ++ rest)) = .ok () rest := by
      rw [lift, hv.skip hgap'' hrest]
      rfl
    rw [hwhole, Partial.next, bind_of_ok (hhas hname _), if_pos rfl, bind_of_ok (hkey hname _), ofName?_other hother]
    dsimp only
    rw [bind_of_ok (colon_gap hgap' _), bind_of_ok hskip, of_none_cons]
    rfl

private theorem next_end (hgap : IsGap gap) (first : Bool) (p : Partial) (s : Text) :
    p.next first (gap ++ '\x7d' :: s) = .ok (p, false) ('\x7d' :: s) := by
  rw [Partial.next, bind_of_ok (hasKey_end hgap first s)]
  rfl

private theorem length_pos_of_isMember (h : IsMember c t m) : 0 < t.length := by
  cases h with
  | field hkey | other hkey =>
    obtain ⟨w, rfl⟩ := exists_quote hkey
    exact Nat.succ_pos _

private theorem not_mem_of_once (h : ∀ f, (m :: members ++ given).count (some f) ≤ 1) : ∀ f ∈ m, some f ∉ given := by
  rintro f rfl hmem
  have hcount := h f
  have hpos := List.count_pos_iff.2 hmem
  rw [List.cons_append, List.count_cons_self, List.count_append] at hcount
  omega

private theorem iterate_members (h : IsTail (IsMember c) t members)
    (honce : ∀ f, (members ++ given).count (some f) ≤ 1)
    (rest : Text) : iterate (Partial.next false) (Partial.of c given) (t ++ '\x7d' :: rest) =
      .ok (Partial.of c (members.reverse ++ given)) ('\x7d' :: rest) := by
  induction h generalizing given with
  | close hgap => exact iterate_of_stops (next_end hgap false _ rest)
  | @more gap gap' u tail m members hgap hgap' hu htail ih =>
    have hends := htail.ends .object rest
    have hstep := next_member (.comma hgap) hgap' hu (not_mem_of_once honce) hends
    have hpos := length_pos_of_isMember hu
    have honce' : ∀ f, (members ++ m :: given).count (some f) ≤ 1 := fun f => by
      rw [List.perm_middle.count_eq]
      exact honce f
    have hwhole : gap ++ ',' :: (gap' ++ (u ++ tail)) ++ '\x7d' :: rest =
        gap ++ [','] ++ (gap' ++ (u ++ (tail ++ Json.Frame.object.closing :: rest))) := by
      simp [Json.Frame.closing]
    rw [hwhole, iterate_of_goesOn hstep]
    · rw [List.reverse_cons, List.append_assoc]
      exact ih honce'
    · simp only [List.length_append]
      omega

private theorem missing?_reverse (members : List (Option Field)) : missing? members.reverse = missing? members := by
  simp [missing?]

private theorem fields_of_isFrame (h : IsFrame .object (IsMember c) t members)
    (honce : ∀ f, members.count (some f) ≤ 1)
    (rest : Text) : ∃ w, t = '\x7b' :: (w ++ ['\x7d']) ∧ fields (w ++ '\x7d' :: rest) =
      match missing? members with
      | none => .ok c ('\x7d' :: rest)
      | some f => .error ⟨.missingField f, none⟩ ('\x7d' :: rest) := by
  rw [← missing?_reverse, ← convention_of]
  cases h with
  | empty hgap =>
    refine ⟨_, rfl, ?_⟩
    rw [fields, bind_of_ok (next_end hgap true _ rest)]
    rfl
  | @filled gap u tail m members hgap hu htail =>
    refine ⟨gap ++ (u ++ tail), by simp [Json.Frame.opening, Json.Frame.closing], ?_⟩
    have hnew : ∀ f ∈ m, some f ∉ ([] : List (Option Field)) := by simp
    have hstep := next_member .first hgap hu hnew (htail.ends .object rest)
    rw [of_nil, List.nil_append] at hstep
    have honce' : ∀ f, (members ++ [m]).count (some f) ≤ 1 := fun f => by
      rw [(List.perm_append_singleton m members).count_eq]
      exact honce f
    rw [List.append_assoc, List.append_assoc, fields]
    refine (bind_of_ok hstep).trans ?_
    dsimp only
    rw [if_pos rfl, List.reverse_cons]
    exact bind_of_ok (iterate_members htail honce' rest)

private theorem document_of_holds (h : c.Holds t members) (hgap : IsGap gap) :
    document (t ++ gap) = match missing? members with
      | none => .ok c []
      | some f => .error ⟨.missingField f, some (Json.byteCount gap)⟩ gap := by
  obtain ⟨before, object, rfl, hbefore, hobject⟩ := h.object
  obtain ⟨w, rfl, hfields⟩ := fields_of_isFrame hobject h.once gap
  have hend : objectEnd ('\x7d' :: gap) = .ok () gap := objectEnd_gap Json.isGap_nil gap
  have hwhole : before ++ '\x7b' :: (w ++ ['\x7d']) ++ gap = before ++ '\x7b' :: (w ++ '\x7d' :: gap) := by simp
  have hvalue : document.value (before ++ '\x7b' :: (w ++ '\x7d' :: gap)) = match missing? members with
      | none => .ok c gap
      | some f => .error ⟨.missingField f, some (Json.byteCount gap)⟩ gap := by
    have heat : (do eat; fields : Decoder Convention) ('\x7b' :: (w ++ '\x7d' :: gap)) =
        fields (w ++ '\x7d' :: gap) := rfl
    rw [document.value, bind_peek hbefore (by decide)]
    dsimp only
    rw [if_neg (by decide), if_pos rfl, located, bracketed, heat, hfields]
    cases missing? members with
    | none => simp only [hend]
    | some f =>
      simp only [hend]
      rfl
  have hnothing : Json.skipWhite gap = [] := List.dropWhile_eq_nil_iff.2 hgap
  rw [hwhole, document]
  cases hmissing : missing? members with
  | none =>
    rw [hmissing] at hvalue
    have hpeek : peek gap = .ok none [] := by rw [peek, hnothing]; rfl
    rw [bind_of_ok hvalue, bind_of_ok hpeek]
    rfl
  | some f =>
    rw [hmissing] at hvalue
    exact bind_of_error hvalue

end
end Decoder

section
variable {c : Convention} {members : List (Option Field)} {t gap : Text}

private theorem byteCount_append (t u : Text) : Json.byteCount (t ++ u) = Json.byteCount t + Json.byteCount u := by
  induction t with
  | nil => simp [Json.byteCount]
  | cons d t ih =>
    show d.utf8Size + Json.byteCount (t ++ u) = d.utf8Size + Json.byteCount t + Json.byteCount u
    rw [ih, Nat.add_assoc]

/-- The bytes behind the last line feed. -/
def lastLineBytes (t : Text) : Nat := Json.byteCount (t.reverse.takeWhile (· ≠ '\n'))

private theorem lastLineBytes_cons_of_mem (d : Char) (h : '\n' ∈ t) : lastLineBytes (d :: t) = lastLineBytes t := by
  obtain ⟨line, more, hsplit, hline⟩ := List.eq_append_cons_of_mem (List.mem_reverse.2 h)
  have hall : ∀ e ∈ line, decide (e ≠ '\n') = true := by
    rintro e he
    rw [decide_eq_true_iff]
    rintro rfl
    exact hline he
  unfold lastLineBytes
  rw [List.reverse_cons, hsplit, List.append_assoc, List.takeWhile_append_of_pos hall,
    List.takeWhile_append_of_pos hall]
  simp

private theorem lastLineBytes_cons_of_not_mem (d : Char) (h : '\n' ∉ t) :
    lastLineBytes (d :: t) = (if d = '\n' then 0 else d.utf8Size) + lastLineBytes t := by
  have hall : ∀ e ∈ t.reverse, decide (e ≠ '\n') = true := by
    rintro e he
    rw [decide_eq_true_iff]
    rintro rfl
    exact h (List.mem_reverse.1 he)
  unfold lastLineBytes
  rw [List.reverse_cons, List.takeWhile_append_of_pos hall, List.takeWhile_eq_self_iff.2 hall, byteCount_append,
    Nat.add_comm]
  congr 1
  by_cases hd : d = '\n' <;> simp [hd, Json.byteCount]

/-- The place behind a text is told by its line feeds and by the bytes behind the last one. -/
private theorem place_append (line column : Nat) (t u : Text) : Json.place line column (t ++ u) (Json.byteCount t) =
    (line + t.count '\n', if '\n' ∈ t then lastLineBytes t else column + lastLineBytes t) := by
  induction t generalizing line column with
  | nil =>
    cases u with
    | nil => rfl
    | cons d u => exact if_pos d.utf8Size_pos
  | cons d t ih =>
    have hbytes : Json.byteCount (d :: t) = d.utf8Size + Json.byteCount t := rfl
    rw [List.cons_append, Json.place, hbytes, if_neg (by omega), Nat.add_sub_cancel_left, ih, ih]
    by_cases ht : '\n' ∈ t
    · rw [lastLineBytes_cons_of_mem d ht]
      by_cases hd : d = '\n' <;> simp [hd, ht, Nat.add_comm, Nat.add_left_comm]
    · rw [lastLineBytes_cons_of_not_mem d ht]
      have hcount := List.count_eq_zero_of_not_mem ht
      by_cases hd : d = '\n'
      · simp [hd, hcount]
      · simp [hd, Ne.symm hd, ht, hcount, Nat.add_assoc]

private theorem ofJson_of_holds (h : c.Holds t members) (hgap : IsGap gap) :
    ofJson (t ++ gap) = match missing? members with
      | none => .ok c
      | some f => .error ⟨.missingField f, 1 + t.count '\n', lastLineBytes t⟩ := by
  rw [ofJson, Decoder.document_of_holds h hgap]
  cases missing? members with
  | none => rfl
  | some f =>
    have hread : Json.byteCount (t ++ gap) - Json.byteCount gap = Json.byteCount t := by
      rw [byteCount_append, Nat.add_sub_cancel]
    simp only [Option.getD_some, hread, place_append, Nat.zero_add, ite_self]

end

end Convention

namespace Lookup
open Convention (missing? lastLineBytes)

private theorem convention_of_holds {lookup : Lookup} {path t gap : Text} {c : Convention}
    {members : List (Option Convention.Field)} (h : lookup.load path = .ok (t ++ gap)) (hholds : c.Holds t members)
    (hgap : Json.IsGap gap) : lookup.convention path = match missing? members with
      | none => .ok c
      | some f => .error (.ofRefusal path ⟨.missingField f, 1 + t.count '\n', lastLineBytes t⟩) := by
  rw [Lookup.convention, h]
  dsimp only
  rw [Convention.ofJson_of_holds hholds hgap]
  cases missing? members <;> rfl

/-- Loading a convention undoes writing it. A text with fields of it, in any order and with anything under other
names among them, gives it back if all fields are there, and else is refused behind its closing brace for the first
field that is not there. -/
theorem convention_written (lookup : Lookup) (path : Text) (c : Convention) :
    (lookup.load path = .ok c.toJson → lookup.convention path = .ok c) ∧
    ∀ t gap members, lookup.load path = .ok (t ++ gap) → c.Holds t members → Json.IsGap gap →
      lookup.convention path = match missing? members with
        | none => .ok c
        | some f => .error ⟨path, "Invalid convention", "missing field `" ++ f.name ++ "`" ++ " at line " ++
            Text.ofNat (1 + t.count '\n') ++ " column " ++ Text.ofNat (lastLineBytes t)⟩ := by
  constructor
  · intro h
    have hall := convention_of_holds (by rw [h, List.append_nil]) c.holds_toJson Json.isGap_nil
    rwa [show missing? (Convention.Field.all.map some) = none by decide] at hall
  · intro t gap members h hholds hgap
    rw [convention_of_holds h hholds hgap]
    cases missing? members <;> rfl

/-- A convention whose title has to be escaped. -/
def escaped : Convention := { Convention.standard with title := "a\"\\\n\x01é" }

/-- Every path leads to a file with the same text. -/
def holding (text : Text) : Lookup := fun _ => .ok (.file (.ok text))

/-- That convention as it is written, and a text that holds nothing of it but its title. -/
theorem convention_written_escaped :
    (holding escaped.toJson).convention "house.json" = .ok escaped ∧
      (holding "\x7b\"note\": [1e3],\n\"title\":\"a\\\"\\\\\\n\\u0001é\"\x7d\n").convention "house.json" =
        .error ⟨"house.json", "Invalid convention", "missing field `authors` at line 2 column 26"⟩ := by
  refine ⟨(convention_written (holding escaped.toJson) "house.json" escaped).1 rfl, ?_⟩
  have hfeed : Json.IsGap ['\n'] := by simp [Json.IsGap, Json.isWhite]
  have hspace : Json.IsGap [' '] := by simp [Json.IsGap, Json.isWhite]
  have hnumber : Json.IsNumber (['1'] ++ ([] ++ ['e', '3'])) :=
    .natural (.digits rfl (by decide) (by simp)) .none (.unsigned (.inl rfl) ⟨by simp, by simp⟩)
  have hlist : Json.IsJson .value
      (Json.Frame.list.opening :: ([] ++ ['1', 'e', '3'] ++ []) ++ [Json.Frame.list.closing]) :=
    .filled (.last (.element Json.isGap_nil (.scalar (.number hnumber)) Json.isGap_nil))
  have hnote : escaped.IsMember _ none := .other (Json.isString_writeString "note")
    (fun f => by cases f <;> decide +kernel) Json.isGap_nil hspace hlist
  have htitle := escaped.isMember_writeMember .title
  have hobject : Json.IsFrame .object escaped.IsMember _ _ :=
    .filled Json.isGap_nil hnote (.more Json.isGap_nil hfeed htitle (.close Json.isGap_nil))
  have hholds : escaped.Holds _ [none, some .title] :=
    ⟨⟨[], _, rfl, Json.isGap_nil, hobject⟩, fun f => by cases f <;> decide⟩
  have hall := (convention_written (holding _) "house.json" escaped).2 _ ['\n'] _ rfl hholds hfeed
  have hmissing : missing? [none, some .title] = some .authors := by decide
  rw [hmissing] at hall
  refine Eq.trans (congrArg (fun text => (holding text).convention "house.json") ?_)
    (hall.trans (congrArg Except.error ?_))
  · decide +kernel
  · decide +kernel

end Lookup
end SqfLayout
