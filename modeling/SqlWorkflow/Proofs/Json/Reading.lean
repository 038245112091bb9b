import SqlWorkflow.Document.Decode
import SqlWorkflow.Json.Reader
import SqlWorkflow.Outcome
import SqlWorkflow.Proofs.Json.Depth

/-!
# Printed JSON is read back

Reading the tokens of a value gives the document of the value, in which no more containers that
stand inside one another can be read than the reader allows.

- **§1** Where the reader stands before a value.
- **§2** What the tokens of a value do to the reader (`foldl_tokensOf`); so both layouts of a value
  are read back (`read_compact`, `read_pretty`).
- **§3** A value that fits is read in full (`limited_toDoc`), and one that does not cannot be set
  aside (`fits_of_setAside`).
- **§4** Values with one compact text have one document (`toDoc_eq_of_compact_eq`).
-/

namespace SqlWorkflow.Json

namespace State

/-! ## §1 Places of the reader -/

/-- A value comes next; `outer` are the containers that are open around it. -/
inductive Expects : State → List Frame → Prop where
  | value (outer : List Frame) : Expects (.nextValue outer) outer
  | item (outer : List Frame) : Expects (.firstItem outer) (.item [] :: outer)

variable {state : State} {outer : List Frame}

/-- A value that is no container is delivered at once. -/
theorem Expects.next_scalar (h : Expects state outer) {token : Token} {doc : Doc}
    (hstart : ∀ s outer, start s outer token = deliver doc outer) :
    next state token = deliver doc outer := by
  cases h with
  | value => exact hstart _ _
  | item outer =>
    cases token with
    | closeBracket => cases hstart (.nextValue []) []
    | _ => exact hstart (.firstItem outer) (.item [] :: outer)

theorem Expects.next_openBracket (h : Expects state outer) :
    next state .openBracket = .firstItem outer := by
  cases h <;> rfl

theorem Expects.next_openBrace (h : Expects state outer) :
    next state .openBrace = .firstName outer := by
  cases h <;> rfl

/-! ## §2 Reading the tokens of a value -/

/-- A name comes next. -/
inductive ExpectsName : State → List (Doc × Doc) → List Frame → Prop where
  | first (outer : List Frame) : ExpectsName (.firstName outer) [] outer
  | later (done : List (Doc × Doc)) (outer : List Frame) :
      ExpectsName (.nextName done outer) done outer

theorem ExpectsName.foldl_name {done : List (Doc × Doc)} (h : ExpectsName state done outer)
    (name : String) (tokens : List Token) :
    (.str name :: .colon :: tokens).foldl next state =
      tokens.foldl next (.nextValue (.member done name :: outer)) := by
  cases h <;> rfl

mutual

/-- A value is delivered to the container around it. -/
theorem foldl_tokensOf (v : Json) {state : State} {outer : List Frame} (h : Expects state outer) :
    (tokensOf v).foldl next state = deliver v.toDoc outer := by
  match v with
  | .null => exact h.next_scalar fun _ _ => rfl
  | .bool b => exact h.next_scalar fun _ _ => rfl
  | .num n => exact h.next_scalar fun _ _ => rfl
  | .str s => exact h.next_scalar fun _ _ => rfl
  | .arr [] =>
    rw [tokensOf, List.cons_append, List.foldl_cons, h.next_openBracket]
    rfl
  | .arr (item :: rest) =>
    have hitems := foldl_itemTokens item rest (.item outer)
    rw [tokensOf, List.cons_append, List.foldl_cons, h.next_openBracket, List.foldl_append, hitems,
      List.append_nil]
    exact congrArg (fun docs => deliver (.seq docs) outer) (List.reverse_reverse _)
  | .obj [] =>
    rw [tokensOf, List.cons_append, List.foldl_cons, h.next_openBrace]
    rfl
  | .obj ((name, value) :: rest) =>
    have hmembers := foldl_memberTokens name value rest (.first outer)
    rw [tokensOf, List.cons_append, List.foldl_cons, h.next_openBrace, List.foldl_append, hmembers,
      List.append_nil]
    exact congrArg (fun docs => deliver (.map docs) outer) (List.reverse_reverse _)
termination_by sizeOf v

theorem foldl_itemTokens (item : Json) (rest : List Json) {state : State} {outer : List Frame}
    {done : List Doc} (h : Expects state (.item done :: outer)) :
    (itemTokens (item :: rest)).foldl next state =
      .afterItem ((toDocs (item :: rest)).reverse ++ done) outer := by
  have hfirst := foldl_tokensOf item h
  match rest with
  | [] => exact hfirst
  | following :: others =>
    -- A comma leads from one item to the next.
    have hothers := foldl_itemTokens following others (.value (.item (item.toDoc :: done) :: outer))
    have htokens : itemTokens (item :: following :: others) =
        tokensOf item ++ .comma :: itemTokens (following :: others) := rfl
    rw [htokens, List.foldl_append, hfirst, toDocs, List.reverse_cons, List.append_assoc]
    exact hothers
termination_by sizeOf item + sizeOf rest + 1

theorem foldl_memberTokens (name : String) (value : Json) (rest : List (String × Json))
    {state : State} {outer : List Frame} {done : List (Doc × Doc)}
    (h : ExpectsName state done outer) :
    (memberTokens ((name, value) :: rest)).foldl next state =
      .afterMember ((toDocEntries ((name, value) :: rest)).reverse ++ done) outer := by
  -- The value is read inside of a frame that keeps its name.
  have hvalue := foldl_tokensOf value (.value (.member done name :: outer))
  match rest with
  | [] =>
    rw [memberTokens, h.foldl_name]
    exact hvalue
  | (following, value') :: others =>
    -- Behind the comma a name is expected again, as at the start of the members.
    have hothers := foldl_memberTokens following value' others
      (.later ((.text name, value.toDoc) :: done) outer)
    have htokens : memberTokens ((name, value) :: (following, value') :: others) =
        .str name :: .colon :: (tokensOf value ++
          .comma :: memberTokens ((following, value') :: others)) := rfl
    rw [htokens, h.foldl_name, List.foldl_append, hvalue, toDocEntries, List.reverse_cons,
      List.append_assoc]
    exact hothers
termination_by sizeOf value + sizeOf rest + 1

end

end State

/-- The tokens of a value hold its document. -/
theorem ofTokens_tokensOf (v : Json) : ofTokens (tokensOf v) = ⟨v.toDoc, true⟩ := by
  rw [ofTokens, State.foldl_tokensOf v (.value [])]
  rfl

variable {v : Json}

theorem tokens_compact (hnumbers : v.Numbers Number.Fits64) :
    tokens v.compact.toList = tokensOf v := by
  have h := tokens_compactChars v hnumbers [] trivial
  rw [List.append_nil] at h
  rw [compact, String.toList_ofList, h, tokens, List.append_nil]

theorem tokens_pretty (hnumbers : v.Numbers Number.Fits64) :
    tokens v.pretty.toList = tokensOf v := by
  have h := tokens_prettyChars 0 v hnumbers [] trivial
  rw [List.append_nil] at h
  rw [pretty, String.toList_ofList, h, tokens, List.append_nil]

/-- Compact text is read back; no more than 127 containers inside one another can be read. -/
theorem read_compact (hnumbers : v.Numbers Number.Fits64) :
    read v.compact = ⟨v.toDoc.limited 127, true⟩ := by
  rw [read, readChars, tokens_compact hnumbers, ofTokens_tokensOf]
  rfl

/-- So is laid-out text. -/
theorem read_pretty (hnumbers : v.Numbers Number.Fits64) :
    read v.pretty = ⟨v.toDoc.limited 127, true⟩ := by
  rw [read, readChars, tokens_pretty hnumbers, ofTokens_tokensOf]
  rfl

/-! ## §3 What there is room for -/

/-- A container takes one of the levels that there is room for. -/
theorem limited_arr (items : List Json) (n : Nat) :
    (arr items).toDoc.limited (n + 1) = .seq (items.map fun v => v.toDoc.limited n) := by
  refine congrArg Doc.seq ?_
  induction items with
  | nil => rfl
  | cons item items ih => exact congrArg (List.cons _) ih

theorem limited_obj (members : List (String × Json)) (n : Nat) :
    (obj members).toDoc.limited (n + 1) =
      .map (members.map fun m => (.text m.1, m.2.toDoc.limited n)) := by
  refine congrArg Doc.map ?_
  induction members with
  | nil => rfl
  | cons member members ih => exact congrArg (List.cons _) ih

mutual

/-- Nothing is cut off from a value that fits. -/
theorem limited_toDoc {n : Nat} : ∀ v : Json, v.Fits n → v.toDoc.limited n = v.toDoc
  | .arr items, h => by
    rw [toDoc, Doc.limited, if_neg (Nat.ne_of_gt h.1), allLimited_toDocs items h.2]
  | .obj members, h => by
    rw [toDoc, Doc.limited, if_neg (Nat.ne_of_gt h.1),
      entriesLimited_toDocEntries members h.2]
  | .null, _ => rfl
  | .bool _, _ => rfl
  | .num _, _ => rfl
  | .str _, _ => rfl

theorem allLimited_toDocs {n : Nat} : ∀ items : List Json, AllFit n items →
    Doc.allLimited n (toDocs items) = toDocs items
  | [], _ => rfl
  | item :: rest, h => by
    rw [toDocs, Doc.allLimited, limited_toDoc item h.1, allLimited_toDocs rest h.2]

theorem entriesLimited_toDocEntries {n : Nat} : ∀ members : List (String × Json),
    AllMembersFit n members → Doc.entriesLimited n (toDocEntries members) = toDocEntries members
  | [], _ => rfl
  | (name, value) :: rest, h => by
    rw [toDocEntries, Doc.entriesLimited, limited_toDoc value h.1,
      entriesLimited_toDocEntries rest h.2]
    rfl

end

open Decode (setAside setAllAside setEntriesAside)

mutual

/-- What can be set aside fits. -/
theorem fits_of_setAside {n : Nat} : ∀ (v : Json) {doc : Doc},
    setAside (v.toDoc.limited n) = .ok doc → v.Fits n
  | .arr items, _, h => by
    rw [toDoc, Doc.limited] at h
    split at h
    · cases h
    · next hroom =>
      obtain ⟨docs, hdocs, -⟩ := exists_of_map_eq_ok h
      exact ⟨Nat.pos_of_ne_zero hroom, allFit_of_setAllAside items hdocs⟩
  | .obj members, _, h => by
    rw [toDoc, Doc.limited] at h
    split at h
    · cases h
    · next hroom =>
      obtain ⟨entries, hentries, -⟩ := exists_of_map_eq_ok h
      exact ⟨Nat.pos_of_ne_zero hroom, allMembersFit_of_setEntriesAside members hentries⟩
  | .null, _, _ => trivial
  | .bool _, _, _ => trivial
  | .num _, _, _ => trivial
  | .str _, _, _ => trivial

theorem allFit_of_setAllAside {n i : Nat} : ∀ (items : List Json) {docs : List Doc},
    setAllAside i (Doc.allLimited n (toDocs items)) = .ok docs → AllFit n items
  | [], _, _ => trivial
  | item :: rest, _, h => by
    obtain ⟨first, hfirst, hbind⟩ := exists_of_bind_eq_ok h
    obtain ⟨others, hothers, -⟩ := exists_of_bind_eq_ok hbind
    exact ⟨fits_of_setAside item (eq_ok_of_mapError_eq_ok hfirst),
      allFit_of_setAllAside rest hothers⟩

theorem allMembersFit_of_setEntriesAside {n : Nat} :
    ∀ (members : List (String × Json)) {entries : List (Doc × Doc)},
    setEntriesAside (Doc.entriesLimited n (toDocEntries members)) = .ok entries →
      AllMembersFit n members
  | [], _, _ => trivial
  | (name, value) :: rest, _, h => by
    obtain ⟨key, -, hvalue⟩ := exists_of_bind_eq_ok h
    obtain ⟨first, hfirst, hbind⟩ := exists_of_bind_eq_ok hvalue
    obtain ⟨others, hothers, -⟩ := exists_of_bind_eq_ok hbind
    exact ⟨fits_of_setAside value (eq_ok_of_mapError_eq_ok hfirst),
      allMembersFit_of_setEntriesAside rest hothers⟩

end

/-! ## §4 Different values have different texts -/

/-- Values with one compact text are one document, however deep they are. -/
theorem toDoc_eq_of_compact_eq {v w : Json} (hv : v.Whole) (hw : w.Whole)
    (h : v.compact = w.compact) : v.toDoc = w.toDoc := by
  have htokens : tokensOf v = tokensOf w := by
    rw [← tokens_compact hv.numbers, ← tokens_compact hw.numbers, h]
  have hread := ofTokens_tokensOf v
  rw [htokens, ofTokens_tokensOf w] at hread
  exact (congrArg Reading.doc hread).symm

end SqlWorkflow.Json
