import SqlWorkflow.Proofs.Target.Markers

/-!
# Markers are replaced one by one

A resolver is asked about every marker of a text exactly once, in the order in which they stand,
and about nothing else.  What it does besides giving a text, such as keeping a record or failing,
is left open: the statements hold in every monad.

- **§1** Texts and markers in turn are taken apart into just these (`pieces_alternating`).
- **§2** What stands between control characters need not be a marker (`Bodies`); if it is none, it
  is literal text.
- **§3** The main statement, `substituteM_alternating`.
-/

namespace SqlWorkflow.Deferred

/-! ## §1 Texts and markers in turn -/

/-- Markers, each with the text that follows it. -/
def followed (rest : List (Deferred × String)) : List Piece :=
  rest.flatMap fun p => [.marker p.1, .literal p.2]

theorem followed_cons (d : Deferred) (after : String) (rest : List (Deferred × String)) :
    followed ((d, after) :: rest) = .marker d :: .literal after :: followed rest :=
  rfl

/-- Nothing is put together where texts and markers take turns. -/
theorem merged_followed (before : String) (rest : List (Deferred × String)) :
    merged before (followed rest) = .literal before :: followed rest := by
  induction rest generalizing before with
  | nil => rfl
  | cons p rest ih =>
    obtain ⟨d, after⟩ := p
    rw [followed_cons, merged, merged, ih, String.empty_append]

theorem write_followed (rest : List (Deferred × String)) :
    write (followed rest) = String.join (rest.map fun p => p.1.encode ++ p.2) := by
  induction rest with
  | nil => rfl
  | cons p rest ih =>
    obtain ⟨d, after⟩ := p
    rw [followed_cons, write_cons, write_cons, ih, List.map_cons, String.join_cons,
      String.append_assoc]
    rfl

theorem apart_followed {start : String} {rest : List (Deferred × String)}
    (hstart : opening ∉ start.toList) (hrest : ∀ p ∈ rest, opening ∉ p.2.toList) :
    Apart (.literal start :: followed rest) := by
  intro s hs
  rcases List.mem_cons.1 hs with heq | hs
  · cases heq
    exact hstart
  · obtain ⟨p, hp, hmem⟩ := List.mem_flatMap.1 hs
    obtain rfl : s = p.2 := by simpa using hmem
    exact hrest p hp

/-- Texts and markers in turn are taken apart into just these. -/
theorem pieces_alternating {start : String} {rest : List (Deferred × String)}
    (hstart : opening ∉ start.toList) (hrest : ∀ p ∈ rest, opening ∉ p.2.toList) :
    pieces (start ++ String.join (rest.map fun p => p.1.encode ++ p.2)) =
      .literal start :: followed rest := by
  have hwrite : write (.literal start :: followed rest) =
      start ++ String.join (rest.map fun p => p.1.encode ++ p.2) := by
    rw [write_cons, write_followed]
    rfl
  rw [← hwrite, pieces_write (apart_followed hstart hrest), merged, String.empty_append,
    merged_followed]

/-! ## §2 What stands between control characters -/

/-- What stands in the place of a marker's body, from first to last.  The character that begins a
marker counts nowhere inside of a body, and neither does one after which no marker ends. -/
inductive Bodies : List Char → List (List Char) → Prop where
  | plain {cs : List Char} (h : opening ∉ cs) : Bodies cs []
  | unended {before after : List Char} (hbefore : opening ∉ before) (hafter : closing ∉ after) :
      Bodies (before ++ opening :: after) []
  | body {before body rest : List Char} {bodies : List (List Char)} (hbefore : opening ∉ before)
      (hbody : closing ∉ body) (hrest : Bodies rest bodies) :
      Bodies (before ++ opening :: (body ++ closing :: rest)) (body :: bodies)

/-- A text up to the first occurrence of a character, and what follows it. -/
theorem exists_eq_append_cons {c : Char} {cs : List Char} (h : c ∈ cs) :
    ∃ before after, c ∉ before ∧ cs = before ++ c :: after := by
  obtain ⟨before, after, rfl, hbefore⟩ := List.eq_append_cons_of_mem h
  exact ⟨before, after, hbefore, rfl⟩

/-- Of every text it can be said what stands in the place of markers. -/
theorem exists_bodies (cs : List Char) : ∃ bodies, Bodies cs bodies := by
  induction hlength : cs.length using Nat.strongRecOn generalizing cs with
  | _ n ih =>
    by_cases hopening : opening ∈ cs
    · obtain ⟨before, after, hbefore, rfl⟩ := exists_eq_append_cons hopening
      by_cases hclosing : closing ∈ after
      · obtain ⟨body, rest, hbody, rfl⟩ := exists_eq_append_cons hclosing
        obtain ⟨bodies, hrest⟩ := ih rest.length (by simp at hlength; omega) rest rfl
        exact ⟨body :: bodies, .body hbefore hbody hrest⟩
      · exact ⟨[], .unended hbefore hclosing⟩
    · exact ⟨[], .plain hopening⟩

/-- Where no marker ends, none begins. -/
theorem piecesOf_unended {before after : List Char} (hbefore : opening ∉ before)
    (hafter : closing ∉ after) :
    piecesOf (before ++ opening :: after) =
      [.literal (String.ofList (before ++ opening :: after))] := by
  rw [piecesOf]
  split
  · rfl
  · next heq =>
    rw [Text.dropWhile_append_cons hbefore] at heq
    cases heq
    split
    · rfl
    · next heq => rw [Text.dropWhile_of_not_mem hafter] at heq; cases heq

/-- A text without markers is taken apart into literal texts that make it up. -/
theorem Bodies.exists_literals {cs : List Char} {bodies : List (List Char)} (h : Bodies cs bodies)
    (hnone : ∀ body ∈ bodies, ofBody? body = none) :
    ∃ texts : List String,
      piecesOf cs = texts.map .literal ∧ String.join texts = String.ofList cs := by
  induction h with
  | plain h => exact ⟨[_], piecesOf_of_not_mem h, by simp⟩
  | unended hbefore hafter => exact ⟨[_], piecesOf_unended hbefore hafter, by simp⟩
  | @body before body rest bodies hbefore hbody _ ih =>
    obtain ⟨texts, hpieces, hjoin⟩ := ih fun b hb => hnone b (List.mem_cons_of_mem _ hb)
    have hliteral : pieceOf body = .literal (String.ofList (opening :: body ++ [closing])) := by
      rw [pieceOf, hnone body List.mem_cons_self]
    refine ⟨String.ofList before :: String.ofList (opening :: body ++ [closing]) :: texts, ?_, ?_⟩
    · rw [piecesOf_marker hbefore hbody, hliteral, hpieces]
      rfl
    · rw [String.join_cons, String.join_cons, hjoin, ← String.toList_inj]
      simp

/-! ## §3 Replacing markers -/

section

variable {m : Type → Type} [Monad m] [LawfulMonad m] {resolve : Deferred → m String}

/-- The text of a piece after markers are replaced. -/
def Piece.replacedM (resolve : Deferred → m String) : Piece → m String
  | .literal s => pure s
  | .marker d => resolve d

theorem substituteM_eq (resolve : Deferred → m String) (text : String) :
    substituteM resolve text = String.join <$> (pieces text).mapM (Piece.replacedM resolve) := by
  rw [map_eq_pure_bind]
  rfl

/-- A resolver that does nothing but give a text. -/
theorem substituteM_pure (f : Deferred → String) (text : String) :
    substituteM (fun d => (pure (f d) : m String)) text = pure (substitute f text) := by
  have hreplaced : Piece.replacedM (m := m) (fun d => pure (f d)) =
      fun p => pure (p.replaced f) := by
    funext p
    cases p <;> rfl
  rw [substituteM_eq, hreplaced, List.mapM_pure, map_pure, substitute_eq]

/-- The resolver is asked about the markers in turn, and the texts stay where they are. -/
theorem join_mapM_followed (rest : List (Deferred × String)) :
    String.join <$> (followed rest).mapM (Piece.replacedM resolve) =
      (fun texts => String.join (List.zipWith (· ++ ·) texts (rest.map Prod.snd))) <$>
        (rest.map Prod.fst).mapM resolve := by
  induction rest with
  | nil => simp [followed]
  | cons p rest ih =>
    obtain ⟨d, after⟩ := p
    have hfirst : String.join <$> (followed ((d, after) :: rest)).mapM (Piece.replacedM resolve) =
        resolve d >>= fun text => (text ++ after ++ ·) <$>
          (String.join <$> (followed rest).mapM (Piece.replacedM resolve)) := by
      simp [followed_cons, Piece.replacedM, String.join_cons, String.append_assoc]
    rw [hfirst, ih]
    simp [String.join_cons]

end

/-- Whatever a resolver does besides giving a text: it is asked about the markers of a text that
was put together from texts and markers in turn, once each and in their order, and what it gives
stands between the same texts; a text in which nothing stands for anything is left as it is, and
the resolver is not asked.  A resolver that does nothing else is the special case. -/
theorem substituteM_alternating {m : Type → Type} [Monad m] [LawfulMonad m]
    (resolve : Deferred → m String) :
    (∀ (start : String) (rest : List (Deferred × String)), opening ∉ start.toList →
        (∀ p ∈ rest, opening ∉ p.2.toList) →
        substituteM resolve (start ++ String.join (rest.map fun p => p.1.encode ++ p.2)) = do
          let texts ← (rest.map Prod.fst).mapM resolve
          return start ++ String.join (List.zipWith (· ++ ·) texts (rest.map Prod.snd))) ∧
      (∀ text : String, (∃ bodies, Bodies text.toList bodies) ∧
        ∀ bodies, Bodies text.toList bodies → (∀ body ∈ bodies, ofBody? body = none) →
          substituteM resolve text = pure text) ∧
      ∀ f : Deferred → String, (∀ d, resolve d = pure (f d)) →
        ∀ text, substituteM resolve text = pure (substitute f text) := by
  refine ⟨?_, ?_, ?_⟩
  · intro start rest hstart hrest
    rw [substituteM_eq, pieces_alternating hstart hrest]
    have hstep : String.join <$> (Piece.literal start :: followed rest).mapM
        (Piece.replacedM resolve) =
        (start ++ ·) <$> (String.join <$> (followed rest).mapM (Piece.replacedM resolve)) := by
      simp [Piece.replacedM, String.join_cons]
    rw [hstep, join_mapM_followed]
    simp
  · intro text
    refine ⟨exists_bodies text.toList, fun bodies hbodies hnone => ?_⟩
    obtain ⟨texts, hpieces, hjoin⟩ := hbodies.exists_literals hnone
    have hreplaced : (texts.map Piece.literal).mapM (Piece.replacedM resolve) = pure texts := by
      rw [List.mapM_map]
      exact (List.mapM_pure (f := id)).trans (by rw [List.map_id])
    rw [substituteM_eq, pieces, hpieces, hreplaced, map_pure, hjoin, String.ofList_toList]
  · intro f hf text
    rw [funext hf]
    exact substituteM_pure f text

/-- A resolver that numbers what it is asked about and keeps a record of it; a reference with
control characters, quotes and backslashes; and a text with two markers that are none. -/
theorem substituteM_alternating_recorded :
    let record : Deferred → StateM (List Deferred) String := fun d => do
      let seen ← get
      set (seen ++ [d])
      return "<" ++ toString (seen.length + 1) ++ ">"
    let r : TargetRef := { schema := some "\x02\x01", name := "it's \"\\" }
    let text := "select '\x02' from " ++ (((Deferred.target r).encode ++ " where ") ++
      (Deferred.selfSchema.encode ++ " = 1"))
    let broken := "a \x01not json\x02 b \x01unterminated"
    Bodies broken.toList ["not json".toList] ∧ ofBody? "not json".toList = none ∧
      (substituteM record text).run [] =
        ("select '\x02' from <1> where <2> = 1", [.target r, .selfSchema]) ∧
      (substituteM record broken).run [] = (broken, []) := by
  intro record r text broken
  have hbodies : Bodies broken.toList ["not json".toList] := by
    have hsplit : broken.toList = "a ".toList ++ opening :: ("not json".toList ++
        closing :: (" b ".toList ++ opening :: "unterminated".toList)) := by decide +kernel
    rw [hsplit]
    exact .body (by decide) (by decide) (.unended (by decide) (by decide))
  have hnone : ofBody? "not json".toList = none := by decide +kernel
  have htext := (substituteM_alternating record).1 "select '\x02' from "
    [(.target r, " where "), (.selfSchema, " = 1")] (by decide) (by decide)
  have hbroken := ((substituteM_alternating record).2.1 broken).2 _ hbodies (by simpa using hnone)
  refine ⟨hbodies, hnone, ?_, ?_⟩
  · have hjoin : text = "select '\x02' from " ++ String.join
        ([(Deferred.target r, " where "), (.selfSchema, " = 1")].map fun p =>
          p.1.encode ++ p.2) := by
      simp [text, String.join_cons]
    rw [hjoin, htext]
    apply Prod.ext
    · decide +kernel
    · rfl
  · rw [hbroken]
    rfl

end SqlWorkflow.Deferred
