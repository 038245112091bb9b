import SqlWorkflow.Json.Printer
import SqlWorkflow.Json.Token
import Mathlib.Tactic.Common

/-!
# The tokens of printed JSON

Both layouts of a JSON value have the same tokens, whatever characters its texts hold, as long as
its numbers are whole numbers that 64 bits can hold, with or without a sign (`Number.Fits64`).  Most
of what the library writes has natural numbers only (`Json.Whole`).

- **§1** The text between two quotes is read back character by character.
- **§2** The digits of a number are read back as the number.
- **§3** The tokens of a value, said by recursion on the value (`Json.tokensOf`).
- **§4** Scanning compact text and laid-out text gives these tokens (`tokens_compactChars`,
  `tokens_prettyChars`).
-/

namespace SqlWorkflow

/-- A whole number that 64 bits can hold, with or without a sign. -/
def Number.Fits64 : Number → Prop
  | .int n => -Nat.pow 2 63 ≤ n ∧ n < Nat.pow 2 64
  | .float _ => False

namespace Json

/-! ## §1 Texts -/

/-- The two digits of a control character spell its code. -/
theorem codeUnit?_hexDigits : ∀ n < 32,
    codeUnit? '0' '0' (hexDigit (n / 16)) (hexDigit (n % 16)) = some n := by
  decide +kernel

theorem scanCodeUnit_control {c : Char} (h : c.toNat < 32) (rest : List Char) :
    scanCodeUnit ('0' :: '0' :: hexDigit (c.toNat / 16) :: hexDigit (c.toNat % 16) :: rest) =
      some (c, rest) := by
  have hleading : isLeading c.toNat = false := by
    simp only [isLeading, Bool.and_eq_false_iff, decide_eq_false_iff_not]
    omega
  have htrailing : isTrailing c.toNat = false := by
    simp only [isTrailing, Bool.and_eq_false_iff, decide_eq_false_iff_not]
    omega
  simp only [scanCodeUnit, codeUnit?_hexDigits c.toNat h, hleading, htrailing]
  simp [Char.ofNat_toNat]

theorem scanChar_letter {c e : Char} (h : simpleEscape? e = some c) (rest : List Char) :
    scanChar '\\' (e :: rest) = some (c, rest) := by
  have hu : e ≠ 'u' := by
    rintro rfl
    cases h
  simp only [scanChar, if_true]
  rw [h, Option.map_some]

/-- What stands for a character between quotes does not start with a quote, and is read as the
character. -/
theorem scanChar_escapeChar (c : Char) (rest : List Char) :
    ∃ d ds, escapeChar c = d :: ds ∧ d ≠ '"' ∧ scanChar d (ds ++ rest) = some (c, rest) := by
  have letter : ∀ {e : Char}, simpleEscape? e = some c → escapeChar c = ['\\', e] →
      ∃ d ds, escapeChar c = d :: ds ∧ d ≠ '"' ∧ scanChar d (ds ++ rest) = some (c, rest) :=
    fun he hc => ⟨_, _, hc, by decide, scanChar_letter he rest⟩
  -- Seven characters have an escape of one letter; of the others, control characters are spelled by
  -- their code and the rest stand for themselves.
  by_cases hquote : c = '"'
  · subst hquote
    exact letter rfl rfl
  by_cases hbackslash : c = '\\'
  · subst hbackslash
    exact letter rfl rfl
  by_cases hnewline : c = '\n'
  · subst hnewline
    exact letter rfl rfl
  by_cases hreturn : c = '\r'
  · subst hreturn
    exact letter rfl rfl
  by_cases htab : c = '\t'
  · subst htab
    exact letter rfl rfl
  by_cases hback : c = '\x08'
  · subst hback
    exact letter rfl rfl
  by_cases hfeed : c = '\x0c'
  · subst hfeed
    exact letter rfl rfl
  by_cases hcontrol : c.toNat < 0x20
  · refine ⟨'\\', ['u', '0', '0', hexDigit (c.toNat / 16), hexDigit (c.toNat % 16)], ?_, by decide,
      scanCodeUnit_control hcontrol rest⟩
    simp only [escapeChar, hquote, hbackslash, hnewline, hreturn, htab, hback, hfeed, hcontrol,
      if_true, if_false]
  · refine ⟨c, [], ?_, hquote, ?_⟩
    · simp only [escapeChar, hquote, hbackslash, hnewline, hreturn, htab, hback, hfeed, hcontrol,
        if_false]
    · simp only [scanChar, hbackslash, hcontrol, if_false, List.nil_append]

/-- The text between two quotes is read back. -/
theorem scanString_escaped (text rest : List Char) :
    scanString (text.flatMap escapeChar ++ '"' :: rest) = some (text, rest) := by
  induction text with
  | nil => simp [scanString]
  | cons c text ih =>
    obtain ⟨d, ds, hescape, hd, hscan⟩ :=
      scanChar_escapeChar c (text.flatMap escapeChar ++ '"' :: rest)
    rw [List.flatMap_cons, hescape, List.append_assoc, List.cons_append, scanString, if_neg hd]
    split
    · next hnone => rw [hnone] at hscan; cases hscan
    · next x rest' hsome =>
      rw [hscan] at hsome
      cases hsome
      rw [ih, Option.map_some]

/-! ## §2 Numbers -/

theorem digitValue_digitChar : ∀ n < 10, digitValue n.digitChar = n := by
  decide

/-- The digits of a number that fits 64 bits add up to the number. -/
theorem foldl_pushWhole_toDigits (n : Nat) (h : n < Nat.pow 2 64) :
    (Nat.toDigits 10 n).foldl Significand.pushWhole ⟨0, 0, false⟩ = ⟨n, 0, false⟩ := by
  induction n using Nat.strongRecOn with
  | ind n ih =>
    -- As long as the digits fit, one more digit is one more place.
    have push : ∀ m d, d < 10 → m * 10 + d < Nat.pow 2 64 →
        Significand.pushWhole ⟨m, 0, false⟩ d.digitChar = ⟨m * 10 + d, 0, false⟩ := by
      intro m d hd hfits
      simp only [Significand.pushWhole, digitValue_digitChar d hd, Bool.false_or,
        decide_eq_true_eq]
      rw [if_neg (by omega)]
    rw [Nat.toDigits_eq_if (by decide)]
    split
    · next hlt => simpa using push 0 n hlt (by omega)
    · next hge =>
      rw [List.foldl_append, ih (n / 10) (by omega) (by omega), List.foldl_cons, List.foldl_nil,
        push (n / 10) (n % 10) (by omega) (by omega), Nat.div_add_mod']

/-- A number of more than one digit does not start with a zero. -/
theorem toDigits_ne_zero_cons (n : Nat) (c : Char) (cs : List Char) :
    Nat.toDigits 10 n ≠ '0' :: c :: cs := by
  induction n using Nat.strongRecOn generalizing c cs with
  | ind n ih =>
    rw [Nat.toDigits_eq_if (by decide)]
    split
    · simp
    · next hge =>
      intro heq
      -- The first digit of `n` is that of `n / 10`, which is not zero if it is the only one.
      rcases hdigits : Nat.toDigits 10 (n / 10) with _ | ⟨d, _ | ⟨e, ds⟩⟩
      · exact Nat.toDigits_ne_nil hdigits
      · rw [hdigits] at heq
        have hzero : d = '0' := (List.cons.inj heq).1
        have hlt : n / 10 < 10 := by
          by_contra hge
          have := (Nat.length_toDigits_le_iff (by decide) (by decide) (b := 10) (k := 1)).1
            (Nat.le_of_eq (congrArg List.length hdigits))
          omega
        rw [Nat.toDigits_of_lt_base hlt] at hdigits
        have := Nat.digitChar_eq_zero.1 ((List.cons.inj hdigits).1.trans hzero)
        omega
      · rw [hdigits] at heq
        have hzero : d = '0' := (List.cons.inj heq).1
        exact ih (n / 10) (by omega) e ds (hzero ▸ hdigits)

/-- A number does not go on in this text. -/
def EndsNumber : List Char → Prop
  | [] => True
  | c :: _ => c.isDigit = false ∧ c ≠ '.' ∧ c ≠ 'e' ∧ c ≠ 'E'

theorem endsNumber_cons {c : Char} (h : c ∈ [',', ']', '\x7d', '\n']) (rest : List Char) :
    EndsNumber (c :: rest) := by
  simp only [List.mem_cons, List.not_mem_nil, or_false] at h
  rcases h with rfl | rfl | rfl | rfl
  all_goals exact ⟨rfl, by decide, by decide, by decide⟩

theorem takeWhile_digits {digits rest : List Char} (hdigits : ∀ c ∈ digits, c.isDigit = true)
    (hrest : EndsNumber rest) :
    (digits ++ rest).takeWhile Char.isDigit = digits ∧
      (digits ++ rest).dropWhile Char.isDigit = rest := by
  have hstop : rest.takeWhile Char.isDigit = [] ∧ rest.dropWhile Char.isDigit = rest := by
    cases rest with
    | nil => exact ⟨rfl, rfl⟩
    | cons c cs => simp [hrest.1]
  rw [List.takeWhile_append_of_pos hdigits, List.dropWhile_append_of_pos hdigits, hstop.1, hstop.2,
    List.append_nil]
  exact ⟨rfl, rfl⟩

theorem scanPlaces_of_endsNumber {rest : List Char} (h : EndsNumber rest) :
    scanPlaces rest = some (none, rest) := by
  unfold scanPlaces
  split
  · exact absurd rfl h.2.1
  · rfl

theorem scanPower_of_endsNumber {rest : List Char} (h : EndsNumber rest) :
    scanPower rest = some (none, rest) := by
  unfold scanPower
  split
  · rfl
  · simp [h.2.2.1, h.2.2.2]

theorem isDigit_of_mem_toDigits {n : Nat} : ∀ c ∈ Nat.toDigits 10 n, c.isDigit = true :=
  fun _ hc => Nat.isDigit_of_mem_toDigits (by decide) (by decide) hc

theorem scanWhole_toDigits (n : Nat) {rest : List Char} (hrest : EndsNumber rest) :
    scanWhole (Nat.toDigits 10 n ++ rest) = some (Nat.toDigits 10 n, rest) := by
  have hzero := toDigits_ne_zero_cons n
  obtain ⟨htake, hdrop⟩ := takeWhile_digits (isDigit_of_mem_toDigits (n := n)) hrest
  unfold scanWhole
  rw [htake, hdrop]
  split
  · next heq => exact absurd heq Nat.toDigits_ne_nil
  · next heq => exact absurd heq (hzero _ _)
  · next heq => rw [← heq]

theorem scanSign_toDigits (n : Nat) (rest : List Char) :
    scanSign (Nat.toDigits 10 n ++ rest) = (false, Nat.toDigits 10 n ++ rest) := by
  rcases hlist : Nat.toDigits 10 n with _ | ⟨d, ds⟩
  · exact absurd hlist Nat.toDigits_ne_nil
  have hdigit : d.isDigit = true := isDigit_of_mem_toDigits d (hlist ▸ List.mem_cons_self)
  unfold scanSign
  split
  · next heq =>
    have hminus : d = '-' := (List.cons.inj heq).1
    exact absurd hdigit (hminus ▸ by decide)
  · rfl

/-- The digits of a number are read back as the number. -/
theorem scanNumber_toDigits {n : Nat} (hn : n < Nat.pow 2 64) {rest : List Char}
    (hrest : EndsNumber rest) :
    scanNumber (Nat.toDigits 10 n ++ rest) = some (.int n, rest) := by
  -- A digit is no sign, and what follows the digits is neither a point nor a power of ten.
  simp only [scanNumber, scanSign_toDigits, scanWhole_toDigits n hrest,
    scanPlaces_of_endsNumber hrest, scanPower_of_endsNumber hrest, Option.bind_eq_bind,
    Option.bind_some, number?, foldl_pushWhole_toDigits n hn]
  rfl

/-- A sign and digits other than a zero are read back as the number. -/
theorem scanNumber_minus {n : Nat} (hpos : 0 < n) (hn : n ≤ Nat.pow 2 63) {rest : List Char}
    (hrest : EndsNumber rest) :
    scanNumber ('-' :: (Nat.toDigits 10 n ++ rest)) = some (.int (-n), rest) := by
  have hfits : n < Nat.pow 2 64 := Nat.lt_of_le_of_lt hn (by decide)
  have hnumber : number? true (Nat.toDigits 10 n) none none = some (.int (-n)) := by
    simp only [number?, foldl_pushWhole_toDigits n hfits, Option.isNone_none, Bool.and_self,
      Bool.not_false, Bool.not_true, if_true, Bool.false_eq_true, if_false,
      if_neg (Nat.ne_of_gt hpos), if_pos hn]
  simp only [scanNumber, scanSign, scanWhole_toDigits n hrest, scanPlaces_of_endsNumber hrest,
    scanPower_of_endsNumber hrest, Option.bind_eq_bind, Option.bind_some, hnumber]
  rfl

/-! ## §3 The tokens of a value -/

mutual

/-- Are all numbers natural numbers of at most 64 bits? -/
def Whole : Json → Prop
  | .num (.int n) => 0 ≤ n ∧ n < Nat.pow 2 64
  | .num (.float _) => False
  | .arr items => AllWhole items
  | .obj members => AllMembersWhole members
  | _ => True

def AllWhole : List Json → Prop
  | [] => True
  | item :: rest => item.Whole ∧ AllWhole rest

def AllMembersWhole : List (String × Json) → Prop
  | [] => True
  | (_, value) :: rest => value.Whole ∧ AllMembersWhole rest

end

/-! Numbers of a value -/

mutual

/-- Do all numbers have the property? -/
def Numbers (P : Number → Prop) : Json → Prop
  | .num n => P n
  | .arr items => AllNumbers P items
  | .obj members => AllMemberNumbers P members
  | _ => True

def AllNumbers (P : Number → Prop) : List Json → Prop
  | [] => True
  | item :: rest => item.Numbers P ∧ AllNumbers P rest

def AllMemberNumbers (P : Number → Prop) : List (String × Json) → Prop
  | [] => True
  | (_, value) :: rest => value.Numbers P ∧ AllMemberNumbers P rest

end

mutual

theorem Whole.numbers : ∀ v : Json, v.Whole → v.Numbers Number.Fits64
  | .num (.int _), h => ⟨Int.le_trans (by decide) h.1, h.2⟩
  | .num (.float _), h => h
  | .arr items, h => AllWhole.numbers items h
  | .obj members, h => AllMembersWhole.numbers members h
  | .null, _ => trivial
  | .bool _, _ => trivial
  | .str _, _ => trivial

theorem AllWhole.numbers : ∀ items, AllWhole items → AllNumbers Number.Fits64 items
  | [], _ => trivial
  | item :: rest, h => ⟨Whole.numbers item h.1, AllWhole.numbers rest h.2⟩

theorem AllMembersWhole.numbers :
    ∀ members, AllMembersWhole members → AllMemberNumbers Number.Fits64 members
  | [], _ => trivial
  | (_, value) :: rest, h => ⟨Whole.numbers value h.1, AllMembersWhole.numbers rest h.2⟩

end

theorem allWhole_of_forall {items : List Json} (h : ∀ v ∈ items, v.Whole) : AllWhole items := by
  induction items with
  | nil => trivial
  | cons item items ih => exact ⟨h item List.mem_cons_self, ih fun v hv => h v (.tail _ hv)⟩

theorem allMembersWhole_of_forall {members : List (String × Json)}
    (h : ∀ member ∈ members, member.2.Whole) : AllMembersWhole members := by
  induction members with
  | nil => trivial
  | cons member members ih => exact ⟨h member List.mem_cons_self, ih fun m hm => h m (.tail _ hm)⟩

theorem whole_arr_map {α : Type} {encode : α → Json} {items : List α}
    (h : ∀ a ∈ items, (encode a).Whole) : (Json.arr (items.map encode)).Whole :=
  allWhole_of_forall (List.forall_mem_map.2 h)

theorem whole_ofDict {α : Type} {encode : α → Json} {d : Dict α}
    (h : ∀ entry ∈ d.entries, (encode entry.2).Whole) : (ofDict encode d).Whole :=
  allMembersWhole_of_forall (List.forall_mem_map.2 h)

theorem whole_present {written : List (String × Option Json)}
    (h : ∀ member ∈ written, ∀ v ∈ member.2, v.Whole) : (present written).Whole := by
  refine allMembersWhole_of_forall fun member hmember => ?_
  obtain ⟨⟨name, value?⟩, hwritten, hsome⟩ := List.mem_filterMap.1 hmember
  obtain ⟨v, rfl, rfl⟩ := Option.map_eq_some_iff.1 hsome
  exact h _ hwritten v rfl

mutual

/-- The tokens of a value. -/
def tokensOf : Json → List Token
  | .null => [.null]
  | .bool b => [.bool b]
  | .num n => [.num n]
  | .str s => [.str s]
  | .arr items => .openBracket :: itemTokens items ++ [.closeBracket]
  | .obj members => .openBrace :: memberTokens members ++ [.closeBrace]

def itemTokens : List Json → List Token
  | [] => []
  | [item] => tokensOf item
  | item :: rest => tokensOf item ++ .comma :: itemTokens rest

def memberTokens : List (String × Json) → List Token
  | [] => []
  | [(name, value)] => .str name :: .colon :: tokensOf value
  | (name, value) :: rest =>
    .str name :: .colon :: tokensOf value ++ .comma :: memberTokens rest

end

/-! ## §4 Scanning printed text -/

/-- A mark that is a token of its own. -/
theorem tokens_mark {c : Char} {t : Token} (hspace : isSpace c = false)
    (hscan : ∀ cs, scanToken c cs = (t, cs)) (rest : List Char) :
    tokens (c :: rest) = t :: tokens rest := by
  rw [tokens, if_neg (by simp [hspace]), hscan]

theorem tokens_openBracket (rest : List Char) :
    tokens ('[' :: rest) = .openBracket :: tokens rest :=
  tokens_mark rfl (fun _ => rfl) rest

theorem tokens_closeBracket (rest : List Char) :
    tokens (']' :: rest) = .closeBracket :: tokens rest :=
  tokens_mark rfl (fun _ => rfl) rest

theorem tokens_openBrace (rest : List Char) : tokens ('\x7b' :: rest) = .openBrace :: tokens rest :=
  tokens_mark rfl (fun _ => rfl) rest

theorem tokens_closeBrace (rest : List Char) :
    tokens ('\x7d' :: rest) = .closeBrace :: tokens rest :=
  tokens_mark rfl (fun _ => rfl) rest

theorem tokens_comma (rest : List Char) : tokens (',' :: rest) = .comma :: tokens rest :=
  tokens_mark rfl (fun _ => rfl) rest

theorem tokens_colon (rest : List Char) : tokens (':' :: rest) = .colon :: tokens rest :=
  tokens_mark rfl (fun _ => rfl) rest

theorem tokens_space {c : Char} (h : isSpace c = true) (rest : List Char) :
    tokens (c :: rest) = tokens rest := by
  rw [tokens, if_pos h]

theorem tokens_blank (rest : List Char) : tokens (' ' :: rest) = tokens rest :=
  tokens_space rfl rest

/-- Line breaks and blanks between tokens do not matter. -/
theorem tokens_newline (depth : Nat) (rest : List Char) :
    tokens (newline depth ++ rest) = tokens rest := by
  have hblanks : ∀ n, tokens (List.replicate n ' ' ++ rest) = tokens rest := by
    intro n
    induction n with
    | zero => rfl
    | succ n ih => rw [List.replicate_succ, List.cons_append, tokens_blank, ih]
  rw [newline, List.cons_append, tokens_space rfl, hblanks]

theorem tokens_quoted (s : String) (rest : List Char) :
    tokens (quoted s ++ rest) = .str s :: tokens rest := by
  have hscan : scanString (s.toList.flatMap escapeChar ++ ['"'] ++ rest) =
      some (s.toList, rest) := by
    rw [List.append_assoc]
    exact scanString_escaped s.toList rest
  rw [quoted, List.cons_append, List.cons_append, tokens, if_neg (by decide)]
  simp only [scanToken, hscan, String.ofList_toList]

theorem scanToken_number {c : Char} (h : c = '-' ∨ c.isDigit = true) {cs rest : List Char}
    {n : Number} (hscan : scanNumber (c :: cs) = some (n, rest)) :
    scanToken c cs = (.num n, rest) := by
  have hstart : (c = '-' || c.isDigit) = true := by simpa using h
  unfold scanToken
  -- No mark and no letter is a digit or a sign.
  split <;> try exact absurd h (by decide)
  simp only [hstart, if_true, hscan]

theorem isSpace_of_isDigit {c : Char} (h : c.isDigit = true) : isSpace c = false := by
  rw [Bool.eq_false_iff]
  intro hspace
  simp only [isSpace, Bool.or_eq_true, decide_eq_true_eq] at hspace
  rcases hspace with ((rfl | rfl) | rfl) | rfl <;> exact absurd h (by decide)

theorem tokens_digits {n : Nat} (hn : n < Nat.pow 2 64) {rest : List Char}
    (hrest : EndsNumber rest) :
    tokens (Nat.toDigits 10 n ++ rest) = .num (.int n) :: tokens rest := by
  have hscan := scanNumber_toDigits hn hrest
  rcases hlist : Nat.toDigits 10 n with _ | ⟨d, ds⟩
  · exact absurd hlist Nat.toDigits_ne_nil
  have hdigit : d.isDigit = true := isDigit_of_mem_toDigits d (hlist ▸ List.mem_cons_self)
  rw [hlist, List.cons_append] at hscan
  rw [List.cons_append, tokens, if_neg (by simp [isSpace_of_isDigit hdigit]),
    scanToken_number (.inr hdigit) hscan]

/-- A whole number of 64 bits is one token. -/
theorem tokens_number {n : Number} (hn : n.Fits64) {rest : List Char} (hrest : EndsNumber rest) :
    tokens (numberChars n ++ rest) = .num n :: tokens rest := by
  match n, hn with
  | .int (.ofNat n), hn => exact tokens_digits (Int.ofNat_lt.1 hn.2) hrest
  | .int (.negSucc n), hn =>
    have hle : n + 1 ≤ Nat.pow 2 63 := by
      have hlow := hn.1
      rw [Int.negSucc_eq] at hlow
      omega
    rw [numberChars, List.cons_append, tokens, if_neg (by decide),
      scanToken_number (.inl rfl) (scanNumber_minus (Nat.succ_pos n) hle hrest)]
    rfl

/-- A value that is no container is one token. -/
theorem tokens_scalar {v : Json} (hnumbers : v.Numbers Number.Fits64) {rest : List Char}
    (hrest : EndsNumber rest) (harr : ∀ items, v ≠ .arr items)
    (hobj : ∀ members, v ≠ .obj members) :
    tokens (compactChars v ++ rest) = tokensOf v ++ tokens rest := by
  -- Words are compared letter by letter, so nothing needs to be known about what follows them.
  have word : ∀ {c : Char} {cs : List Char} {t : Token}, isSpace c = false →
      scanToken c (cs ++ rest) = (t, rest) → tokens (c :: cs ++ rest) = [t] ++ tokens rest := by
    intro c cs t hspace hscan
    rw [List.cons_append, tokens, if_neg (by simp [hspace]), hscan]
    rfl
  cases v with
  | null => exact word rfl rfl
  | bool b => cases b <;> exact word rfl rfl
  | num n => exact tokens_number hnumbers hrest
  | str s => exact tokens_quoted s rest
  | arr items => exact absurd rfl (harr items)
  | obj members => exact absurd rfl (hobj members)

/-! Compact text -/

mutual

theorem tokens_compactChars (v : Json) (hnumbers : v.Numbers Number.Fits64) (rest : List Char)
    (hrest : EndsNumber rest) : tokens (compactChars v ++ rest) = tokensOf v ++ tokens rest := by
  cases v with
  | arr items =>
    -- What follows a number inside a container ends it: a comma or a closing mark.
    have hitems := tokens_compactItems items hnumbers (']' :: rest) (endsNumber_cons (by decide) _)
    simp only [compactChars, tokensOf, List.cons_append, List.append_assoc, List.nil_append,
      tokens_openBracket, hitems, tokens_closeBracket]
  | obj members =>
    have hmembers := tokens_compactMembers members hnumbers ('\x7d' :: rest)
      (endsNumber_cons (by decide) _)
    simp only [compactChars, tokensOf, List.cons_append, List.append_assoc, List.nil_append,
      tokens_openBrace, hmembers, tokens_closeBrace]
  | null => exact tokens_scalar hnumbers hrest (by simp) (by simp)
  | bool b => exact tokens_scalar hnumbers hrest (by simp) (by simp)
  | num n => exact tokens_scalar hnumbers hrest (by simp) (by simp)
  | str s => exact tokens_scalar hnumbers hrest (by simp) (by simp)

theorem tokens_compactItems (items : List Json) (hnumbers : AllNumbers Number.Fits64 items)
    (rest : List Char) (hrest : EndsNumber rest) :
    tokens (compactItems items ++ rest) = itemTokens items ++ tokens rest := by
  match items, hnumbers with
  | [], _ => rfl
  | [item], hnumbers => exact tokens_compactChars item hnumbers.1 rest hrest
  | item :: next :: others, hnumbers =>
    have hfirst := tokens_compactChars item hnumbers.1
      (',' :: (compactItems (next :: others) ++ rest)) (endsNumber_cons (by decide) _)
    have hothers := tokens_compactItems (next :: others) hnumbers.2 rest hrest
    simp only [compactItems, itemTokens, List.append_assoc, List.cons_append, hfirst, tokens_comma,
      hothers]

theorem tokens_compactMembers (members : List (String × Json))
    (hnumbers : AllMemberNumbers Number.Fits64 members) (rest : List Char)
    (hrest : EndsNumber rest) :
    tokens (compactMembers members ++ rest) = memberTokens members ++ tokens rest := by
  match members, hnumbers with
  | [], _ => rfl
  | [(name, value)], hnumbers =>
    have hvalue := tokens_compactChars value hnumbers.1 rest hrest
    simp only [compactMembers, memberTokens, List.append_assoc, List.cons_append, tokens_quoted,
      tokens_colon, hvalue]
  | (name, value) :: next :: others, hnumbers =>
    have hvalue := tokens_compactChars value hnumbers.1
      (',' :: (compactMembers (next :: others) ++ rest)) (endsNumber_cons (by decide) _)
    have hothers := tokens_compactMembers (next :: others) hnumbers.2 rest hrest
    simp only [compactMembers, memberTokens, List.append_assoc, List.cons_append, tokens_quoted,
      tokens_colon, hvalue, tokens_comma, hothers]

end

/-! Laid-out text -/

theorem endsNumber_newline (depth : Nat) (rest : List Char) : EndsNumber (newline depth ++ rest) :=
  endsNumber_cons (by decide) _

mutual

theorem tokens_prettyChars (depth : Nat) (v : Json) (hnumbers : v.Numbers Number.Fits64)
    (rest : List Char) (hrest : EndsNumber rest) :
    tokens (prettyChars depth v ++ rest) = tokensOf v ++ tokens rest := by
  -- What is empty is written without line breaks, and so it is a case of its own.
  match v, hnumbers with
  | .arr [], _ =>
    simp only [prettyChars, tokensOf, itemTokens, List.cons_append, List.nil_append,
      tokens_openBracket, tokens_closeBracket]
  | .arr (item :: others), hnumbers =>
    have hitems := tokens_prettyItems (depth + 1) (item :: others) hnumbers
      (newline depth ++ ']' :: rest) (endsNumber_newline _ _)
    simp only [prettyChars, tokensOf, List.cons_append, List.append_assoc, List.nil_append,
      tokens_openBracket, hitems, tokens_newline, tokens_closeBracket]
  | .obj [], _ =>
    simp only [prettyChars, tokensOf, memberTokens, List.cons_append, List.nil_append,
      tokens_openBrace, tokens_closeBrace]
  | .obj (member :: others), hnumbers =>
    have hmembers := tokens_prettyMembers (depth + 1) (member :: others) hnumbers
      (newline depth ++ '\x7d' :: rest) (endsNumber_newline _ _)
    simp only [prettyChars, tokensOf, List.cons_append, List.append_assoc, List.nil_append,
      tokens_openBrace, hmembers, tokens_newline, tokens_closeBrace]
  | .null, hnumbers => exact tokens_scalar hnumbers hrest (by simp) (by simp)
  | .bool b, hnumbers => exact tokens_scalar (v := .bool b) hnumbers hrest (by simp) (by simp)
  | .num n, hnumbers => exact tokens_scalar (v := .num n) hnumbers hrest (by simp) (by simp)
  | .str s, hnumbers => exact tokens_scalar (v := .str s) hnumbers hrest (by simp) (by simp)

theorem tokens_prettyItems (depth : Nat) (items : List Json)
    (hnumbers : AllNumbers Number.Fits64 items) (rest : List Char) (hrest : EndsNumber rest) :
    tokens (prettyItems depth items ++ rest) = itemTokens items ++ tokens rest := by
  match items, hnumbers with
  | [], _ => rfl
  | [item], hnumbers =>
    have hitem := tokens_prettyChars depth item hnumbers.1 rest hrest
    simp only [prettyItems, itemTokens, List.append_assoc, tokens_newline, hitem]
  | item :: next :: others, hnumbers =>
    have hfirst := tokens_prettyChars depth item hnumbers.1
      (',' :: (prettyItems depth (next :: others) ++ rest)) (endsNumber_cons (by decide) _)
    have hothers := tokens_prettyItems depth (next :: others) hnumbers.2 rest hrest
    simp only [prettyItems, itemTokens, List.append_assoc, List.cons_append, tokens_newline, hfirst,
      tokens_comma, hothers]

theorem tokens_prettyMembers (depth : Nat) (members : List (String × Json))
    (hnumbers : AllMemberNumbers Number.Fits64 members) (rest : List Char)
    (hrest : EndsNumber rest) :
    tokens (prettyMembers depth members ++ rest) = memberTokens members ++ tokens rest := by
  match members, hnumbers with
  | [], _ => rfl
  | [(name, value)], hnumbers =>
    have hvalue := tokens_prettyChars depth value hnumbers.1 rest hrest
    simp only [prettyMembers, memberTokens, List.append_assoc, List.cons_append, List.nil_append,
      tokens_newline, tokens_quoted, tokens_colon, tokens_blank, hvalue]
  | (name, value) :: next :: others, hnumbers =>
    have hvalue := tokens_prettyChars depth value hnumbers.1
      (',' :: (prettyMembers depth (next :: others) ++ rest)) (endsNumber_cons (by decide) _)
    have hothers := tokens_prettyMembers depth (next :: others) hnumbers.2 rest hrest
    simp only [prettyMembers, memberTokens, List.append_assoc, List.cons_append, List.nil_append,
      tokens_newline, tokens_quoted, tokens_colon, tokens_blank, hvalue, tokens_comma, hothers]

end

end Json

end SqlWorkflow
