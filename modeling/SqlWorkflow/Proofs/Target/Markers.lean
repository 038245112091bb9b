import SqlWorkflow.Proofs.Document.Records
import SqlWorkflow.Proofs.Json.Reading
import SqlWorkflow.Target.Deferred

/-!
# Markers are read back

A text that is put together from markers and from texts without the character before a marker is
taken apart into the same markers, and nothing of them is left in the texts between.

- **§1** What a marker stands for is read back from its body (`ofBody?_compactChars`).
- **§2** Printed JSON holds no control character, so a marker ends where it should.
- **§3** Texts that are put together (`Whole`) and their pieces (`pieces_write`).
-/

namespace SqlWorkflow

open Decode

/-! ## §1 The body of a marker -/

theorem TargetRef.takes (r : TargetRef) : Takes TargetRef.decode r.toJson r := by
  refine Fills.takes (?_ : Fills TargetRef.shape.fields _ ⟨none, none, ""⟩ r) (by decide)
  refine .optional (carries_text r.database) rfl ?_
  refine .optional (carries_text r.schema) rfl ?_
  refine .mandatory (takes_string r.name) ?_
  exact .nil r

theorem TargetRef.bounded_toJson (r : TargetRef) (n : Nat) : r.toJson.Bounded (n + 1) := by
  apply Json.bounded_present
  intro member hmember
  simp only [List.mem_cons, List.not_mem_nil, or_false] at hmember
  rcases hmember with rfl | rfl | rfl
  · exact Json.boundedMember_map Json.bounded_str r.database
  · exact Json.boundedMember_map Json.bounded_str r.schema
  · exact (Json.bounded_str r.name).member

namespace Deferred

theorem takes_target (r : TargetRef) :
    Takes (targetShape.decode { name := "" }) (Json.present [("target", some r.toJson)]) r := by
  refine Fills.takes (?_ : Fills targetShape.fields _ ⟨none, none, ""⟩ r) (by decide)
  exact .mandatory r.takes (.nil r)

theorem takes (d : Deferred) : Takes decode d.toJson d := by
  intro source
  cases d with
  | selfTarget => rfl
  | selfSchema => rfl
  | selfDatabase => rfl
  | target r =>
    -- The name of the variant comes first; the reference is set aside and read afterwards.
    have hentries : taggedEntries "kind"
        [ ("target", fun source doc =>
            (targetShape.decode { name := "" } source doc).map Deferred.target),
          ("selfTarget", Decode.bare .selfTarget),
          ("selfSchema", Decode.bare .selfSchema),
          ("selfDatabase", Decode.bare .selfDatabase) ] source none
        [(.text "kind", .text "target"), (.text "target", r.toJson.toDoc)] =
        .ok (some fun source doc =>
          (targetShape.decode { name := "" } source doc).map Deferred.target,
          [(.text "target", r.toJson.toDoc)]) := by
      simp only [taggedEntries, setAside_toDoc]
      rfl
    show tagged _ _ _ source (.map [(.text "kind", .text "target"), (.text "target", _)]) = _
    simp only [tagged, hentries]
    have htarget := takes_target r .aside
    show (targetShape.decode _ _ (Json.present [("target", some r.toJson)]).toDoc).map _ = _
    rw [htarget]
    rfl

theorem bounded_toJson (d : Deferred) : d.toJson.Bounded 2 := by
  cases d with
  | target r =>
    apply Json.bounded_obj
    intro member hmember
    simp only [List.mem_cons, List.not_mem_nil, or_false] at hmember
    rcases hmember with rfl | rfl
    · exact Json.bounded_str _
    · exact r.bounded_toJson 0
  | selfTarget =>
    apply Json.bounded_obj
    simp [Json.bounded_str]
  | selfSchema =>
    apply Json.bounded_obj
    simp [Json.bounded_str]
  | selfDatabase =>
    apply Json.bounded_obj
    simp [Json.bounded_str]

/-- What a marker stands for is read back from its body. -/
theorem ofBody?_compactChars (d : Deferred) : ofBody? (Json.compactChars d.toJson) = some d := by
  have hbounded := d.bounded_toJson
  have hfits : d.toJson.Fits 127 := Json.Fits.mono (by decide) _ hbounded.fits
  have hread := Json.read_compact hbounded.whole.numbers
  rw [Json.limited_toDoc _ hfits, Json.read, Json.compact, String.toList_ofList] at hread
  simp only [ofBody?, hread, whole, d.takes .jsonText]
  rfl

end Deferred

/-! ## §2 Printed JSON holds no control character -/

namespace Json

theorem not_control_hexDigit : ∀ n < 32,
    0x20 ≤ (hexDigit (n / 16)).toNat ∧ 0x20 ≤ (hexDigit (n % 16)).toNat := by
  decide

theorem not_control_escapeChar {c d : Char} (h : d ∈ escapeChar c) : 0x20 ≤ d.toNat := by
  unfold escapeChar at h
  -- Whatever has an escape is spelled with letters and digits.
  repeat' split at h
  all_goals simp only [List.mem_cons, List.not_mem_nil, or_false] at h
  all_goals try rcases h with rfl | rfl <;> decide
  · next hcontrol =>
    obtain ⟨hhigh, hlow⟩ := not_control_hexDigit c.toNat hcontrol
    rcases h with rfl | rfl | rfl | rfl | rfl | rfl
    · decide
    · decide
    · decide
    · decide
    · exact hhigh
    · exact hlow
  · next hcontrol =>
    rw [h]
    exact Nat.not_lt.1 hcontrol

theorem not_control_quoted {s : String} {c : Char} (h : c ∈ quoted s) : 0x20 ≤ c.toNat := by
  simp only [quoted, List.cons_append, List.mem_cons, List.mem_append, List.mem_flatMap,
    List.not_mem_nil, or_false] at h
  rcases h with rfl | ⟨d, -, hd⟩ | rfl
  · decide
  · exact not_control_escapeChar hd
  · decide

theorem not_control_of_isDigit {c : Char} (h : c.isDigit = true) : 0x20 ≤ c.toNat := by
  simp only [Char.isDigit, Bool.and_eq_true, decide_eq_true_eq] at h
  have hlow : '0'.toNat ≤ c.toNat := h.1
  exact Nat.le_trans (by decide) hlow

mutual

theorem not_control_compactChars : ∀ v : Json, v.Whole → ∀ c ∈ compactChars v, 0x20 ≤ c.toNat
  | .null, _ => by simp [compactChars]
  | .bool true, _ => by simp [compactChars]
  | .bool false, _ => by simp [compactChars]
  | .num (.int (.ofNat n)), _ => by
    intro c hc
    exact not_control_of_isDigit (Nat.isDigit_of_mem_toDigits (by decide) (by decide) hc)
  | .num (.int (.negSucc n)), h => absurd h.1 (Int.negSucc_not_nonneg n).1
  | .num (.float _), h => h.elim
  | .str _, _ => fun _ => not_control_quoted
  | .arr items, h => by
    have hitems := not_control_compactItems items h
    simpa [compactChars, or_imp, forall_and] using hitems
  | .obj members, h => by
    have hmembers := not_control_compactMembers members h
    simpa [compactChars, or_imp, forall_and] using hmembers

theorem not_control_compactItems :
    ∀ items : List Json, AllWhole items → ∀ c ∈ compactItems items, 0x20 ≤ c.toNat
  | [], _ => by simp [compactItems]
  | [item], h => not_control_compactChars item h.1
  | item :: next :: rest, h => by
    have hfirst := not_control_compactChars item h.1
    have hothers := not_control_compactItems (next :: rest) h.2
    simp only [compactItems, List.mem_append, List.mem_cons]
    rintro c (hc | rfl | hc)
    · exact hfirst c hc
    · decide
    · exact hothers c hc

theorem not_control_compactMembers : ∀ members : List (String × Json), AllMembersWhole members →
    ∀ c ∈ compactMembers members, 0x20 ≤ c.toNat
  | [], _ => by simp [compactMembers]
  | [(name, value)], h => by
    have hvalue := not_control_compactChars value h.1
    simp only [compactMembers, List.mem_append, List.mem_cons]
    rintro c (hc | rfl | hc)
    · exact not_control_quoted hc
    · decide
    · exact hvalue c hc
  | (name, value) :: next :: rest, h => by
    have hvalue := not_control_compactChars value h.1
    have hothers := not_control_compactMembers (next :: rest) h.2
    simp only [compactMembers, List.mem_append, List.mem_cons]
    rintro c ((hc | rfl | hc) | rfl | hc)
    · exact not_control_quoted hc
    · decide
    · exact hvalue c hc
    · decide
    · exact hothers c hc

end

end Json

/-! ## §3 Texts that are put together -/

namespace Deferred

/-- The text that is read as the piece. -/
def Piece.write : Piece → String
  | .literal s => s
  | .marker d => d.encode

/-- The text that pieces are put together to. -/
def write (ps : List Piece) : String := String.join (ps.map Piece.write)

/-- No literal text among the pieces holds the character before a marker. -/
def Apart (ps : List Piece) : Prop := ∀ s, .literal s ∈ ps → opening ∉ s.toList

/-- The character before a marker stands in the text only where a marker is written. -/
def Whole (text : String) : Prop := ∃ ps, Apart ps ∧ write ps = text

variable {ps : List Piece} {s t : String}

theorem write_cons (p : Piece) (ps : List Piece) : write (p :: ps) = p.write ++ write ps := by
  rw [write, List.map_cons, String.join_cons]
  rfl

theorem write_append (ps qs : List Piece) : write (ps ++ qs) = write ps ++ write qs := by
  rw [write, List.map_append, String.join_append]
  rfl

theorem Apart.tail {p : Piece} (h : Apart (p :: ps)) : Apart ps :=
  fun s hs => h s (List.mem_cons_of_mem _ hs)

theorem whole_of_not_mem (h : opening ∉ s.toList) : Whole s := by
  refine ⟨[.literal s], ?_, ?_⟩
  · intro s' hs'
    cases List.mem_singleton.1 hs'
    exact h
  · simp [write, Piece.write]

theorem whole_encode (d : Deferred) : Whole d.encode := by
  refine ⟨[.marker d], ?_, ?_⟩
  · intro s hs
    cases List.mem_singleton.1 hs
  · simp [write, Piece.write]

theorem Whole.append (hs : Whole s) (ht : Whole t) : Whole (s ++ t) := by
  obtain ⟨ps, hps, rfl⟩ := hs
  obtain ⟨qs, hqs, rfl⟩ := ht
  refine ⟨ps ++ qs, ?_, write_append ps qs⟩
  intro s hs
  rcases List.mem_append.1 hs with h | h
  · exact hps s h
  · exact hqs s h

/-- The pieces, with literal texts that stand side by side in one piece, and one before each
marker and at the end. -/
def merged (before : String) : List Piece → List Piece
  | [] => [.literal before]
  | .literal s :: ps => merged (before ++ s) ps
  | .marker d :: ps => .literal before :: .marker d :: merged "" ps

/-- Text without the character before a marker is one piece. -/
theorem piecesOf_of_not_mem {cs : List Char} (h : opening ∉ cs) :
    piecesOf cs = [.literal (String.ofList cs)] := by
  rw [piecesOf]
  split
  · rfl
  · next heq => rw [Text.dropWhile_of_not_mem h] at heq; cases heq

/-- Up to the first marker, the marker, and the rest. -/
theorem piecesOf_marker {before body : List Char} (hbefore : opening ∉ before)
    (hbody : closing ∉ body) (rest : List Char) :
    piecesOf (before ++ opening :: (body ++ closing :: rest)) =
      .literal (String.ofList before) :: pieceOf body :: piecesOf rest := by
  rw [piecesOf]
  split
  · next heq => rw [Text.dropWhile_append_cons hbefore] at heq; cases heq
  · next heq =>
    rw [Text.dropWhile_append_cons hbefore] at heq
    cases heq
    split
    · next heq => rw [Text.dropWhile_append_cons hbody] at heq; cases heq
    · next heq =>
      rw [Text.dropWhile_append_cons hbody] at heq
      cases heq
      rw [Text.takeWhile_append_cons hbefore, Text.takeWhile_append_cons hbody]

/-- No marker ends within its body. -/
theorem closing_not_mem_compactChars (d : Deferred) : closing ∉ Json.compactChars d.toJson := by
  intro hmem
  have hle := Json.not_control_compactChars _ d.bounded_toJson.whole _ hmem
  exact absurd hle (by decide)

/-- The pieces of a text that is put together, after what has been read since the last marker. -/
theorem piecesOf_append_write {before : String} (hbefore : opening ∉ before.toList)
    (h : Apart ps) : piecesOf (before.toList ++ (write ps).toList) = merged before ps := by
  induction ps generalizing before with
  | nil =>
    have hnil : write [] = "" := rfl
    rw [hnil, String.toList_empty, List.append_nil, piecesOf_of_not_mem hbefore, merged,
      String.ofList_toList]
  | cons p ps ih =>
    rw [write_cons, String.toList_append, ← List.append_assoc]
    cases p with
    | literal s =>
      have hs := h s List.mem_cons_self
      rw [merged, ← String.toList_append]
      apply ih _ h.tail
      rw [String.toList_append, List.mem_append, not_or]
      exact ⟨hbefore, hs⟩
    | marker d =>
      have hmarker : before.toList ++ (Piece.marker d).write.toList ++ (write ps).toList =
          before.toList ++
            opening :: (Json.compactChars d.toJson ++ closing :: (write ps).toList) := by
        simp [Piece.write, encode]
      -- Nothing has been read since this marker.
      have hnone : opening ∉ "".toList := by simp
      have hrest := ih hnone h.tail
      rw [String.toList_empty, List.nil_append] at hrest
      rw [hmarker, piecesOf_marker hbefore (closing_not_mem_compactChars d), hrest, merged, pieceOf,
        ofBody?_compactChars, String.ofList_toList]

/-- A text that is put together is taken apart into the same pieces. -/
theorem pieces_write (h : Apart ps) : pieces (write ps) = merged "" ps := by
  have hnone : opening ∉ "".toList := by simp
  have hpieces := piecesOf_append_write hnone h
  rwa [String.toList_empty, List.nil_append] at hpieces

theorem mem_merged_marker_iff {d : Deferred} {before : String} :
    .marker d ∈ merged before ps ↔ .marker d ∈ ps := by
  induction ps generalizing before with
  | nil => simp [merged]
  | cons p ps ih =>
    cases p with
    | literal s => simp [merged, ih]
    | marker d' => simp [merged, ih]

theorem Apart.merged (h : Apart ps) {before : String} (hbefore : opening ∉ before.toList) :
    Apart (merged before ps) := by
  induction ps generalizing before with
  | nil =>
    intro s hs
    cases List.mem_singleton.1 hs
    exact hbefore
  | cons p ps ih =>
    cases p with
    | literal s =>
      -- Texts without the character have none in them when they are put together.
      apply ih h.tail
      rw [String.toList_append, List.mem_append, not_or]
      exact ⟨hbefore, h s List.mem_cons_self⟩
    | marker d =>
      intro s hs
      rcases List.mem_cons.1 hs with heq | hs
      · cases heq
        exact hbefore
      · rcases List.mem_cons.1 hs with heq | hs
        · cases heq
        · exact ih h.tail (by simp) s hs

/-- Of a text that is put together nothing is taken for literal text that holds the character before
a marker. -/
theorem Whole.apart_pieces (h : Whole s) : Apart (pieces s) := by
  obtain ⟨ps, hps, rfl⟩ := h
  rw [pieces_write hps]
  exact hps.merged (by simp)

/-- The text of a piece after markers are replaced. -/
def Piece.replaced (resolve : Deferred → String) : Piece → String
  | .literal s => s
  | .marker d => resolve d

theorem substitute_eq (resolve : Deferred → String) (text : String) :
    substitute resolve text = String.join ((pieces text).map (Piece.replaced resolve)) := by
  unfold substitute
  congr 1

/-- The text is put together of a marker and of what stands before it and after it. -/
def Holds (d : Deferred) (text : String) : Prop :=
  ∃ before after, Whole before ∧ Whole after ∧ before ++ d.encode ++ after = text

variable {d : Deferred}

theorem holds_encode (d : Deferred) : Holds d d.encode := by
  have hempty : Whole "" := whole_of_not_mem (by simp)
  exact ⟨"", "", hempty, hempty, by simp⟩

theorem Holds.append (hs : Holds d s) (ht : Whole t) : Holds d (s ++ t) := by
  obtain ⟨before, after, hbefore, hafter, rfl⟩ := hs
  exact ⟨before, after ++ t, hbefore, hafter.append ht, by simp [String.append_assoc]⟩

theorem Whole.holds_append (hs : Whole s) (ht : Holds d t) : Holds d (s ++ t) := by
  obtain ⟨before, after, hbefore, hafter, rfl⟩ := ht
  exact ⟨s ++ before, after, hs.append hbefore, hafter, by simp [String.append_assoc]⟩

theorem Holds.whole (h : Holds d s) : Whole s := by
  obtain ⟨before, after, hbefore, hafter, rfl⟩ := h
  exact (hbefore.append (whole_encode d)).append hafter

/-- A marker that was written is found again. -/
theorem Holds.marker_mem_pieces (h : Holds d s) : .marker d ∈ pieces s := by
  obtain ⟨before, after, ⟨ps, hps, rfl⟩, ⟨qs, hqs, rfl⟩, rfl⟩ := h
  have hwrite : write (ps ++ .marker d :: qs) = write ps ++ d.encode ++ write qs := by
    rw [write_append, write_cons, String.append_assoc]
    rfl
  have hapart : Apart (ps ++ .marker d :: qs) := by
    intro s hs
    rcases List.mem_append.1 hs with h | h
    · exact hps s h
    · rcases List.mem_cons.1 h with heq | h
      · cases heq
      · exact hqs s h
  rw [← hwrite, pieces_write hapart, mem_merged_marker_iff]
  simp

/-- What has been merged reads the same as before. -/
theorem join_replaced_merged (resolve : Deferred → String) (ps : List Piece) (before : String) :
    String.join ((merged before ps).map (Piece.replaced resolve)) =
      before ++ String.join (ps.map (Piece.replaced resolve)) := by
  induction ps generalizing before with
  | nil => simp [merged, Piece.replaced]
  | cons p ps ih =>
    cases p with
    | literal s => simp [merged, ih, Piece.replaced, String.append_assoc]
    | marker d => simp [merged, ih, Piece.replaced]

/-- Replacing the markers of a text that is put together replaces those that were written. -/
theorem substitute_write (resolve : Deferred → String) (h : Apart ps) :
    substitute resolve (write ps) = String.join (ps.map (Piece.replaced resolve)) := by
  rw [substitute_eq, pieces_write h, join_replaced_merged, String.empty_append]

end Deferred

end SqlWorkflow
