import SqlWorkflow.Schedule.Basic
import Mathlib.Data.Finset.Card
import Mathlib.Data.List.Basic
import Mathlib.Data.List.Nodup

/-!
# What is wrong with a schedules file

A file is checked at certain places, which come one after the other, and at each place one thing can
be wrong.  Validation tells all that is wrong, once each and in the order of the places
(`problems_exact`), so nothing is told exactly if the file is valid.

- **§1** The places of a file and what is wrong there (`Wrong`); a valid file (`Valid`).
- **§2** The same by computation, place by place (`problemAt?`).
- **§3** Validation goes through the places in order (`problems_eq`).
- **§4** How many names are repeated.
-/

namespace SqlWorkflow.Schedules

/-! ## §1 Places -/

/-- What is checked of a schedule, in this order. -/
inductive Aspect where
  /-- The schedule has a name. -/
  | named
  /-- No schedule before it has the name. -/
  | unique
  | cron
  | email (k : Nat)

/-- The place of an aspect among those of a schedule. -/
def Aspect.rank : Aspect → Nat
  | .named => 0
  | .unique => 1
  | .cron => 2
  | .email k => 3 + k

/-- A place in a file where something can be wrong. -/
inductive Place where
  /-- An address of the default notification. -/
  | defaultEmail (k : Nat)
  /-- An aspect of a schedule. -/
  | schedule (i : Nat) (aspect : Aspect)

/-- The order of the places: the default notification, then one schedule after the other. -/
def Place.Before : Place → Place → Prop
  | .defaultEmail j, .defaultEmail k => j < k
  | .defaultEmail _, .schedule _ _ => True
  | .schedule _ _, .defaultEmail _ => False
  | .schedule i a, .schedule j b => i < j ∨ i = j ∧ a.rank < b.rank

/-- What is wrong at a place. -/
inductive Wrong (s : Schedules) : Place → Problem → Prop
  | defaultEmail {n : Notification} {k : Nat} {email : String}
      (hn : s.defaultNotification = some n) (hk : n.emails[k]? = some email)
      (h : Email.isValid email = false) : Wrong s (.defaultEmail k) (.badEmail email)
  | noName {i : Nat} {x : Schedule} (hi : s.schedules[i]? = some x) (h : x.name = "") :
      Wrong s (.schedule i .named) .noName
  /-- The first schedule with a name is not to blame. -/
  | repeatedName {i j : Nat} {x y : Schedule} (hi : s.schedules[i]? = some x)
      (hj : s.schedules[j]? = some y) (hlt : j < i) (h : y.name = x.name) :
      Wrong s (.schedule i .unique) (.repeatedName x.name)
  | noCron {i : Nat} {x : Schedule} (hi : s.schedules[i]? = some x)
      (h : Text.isAllBlank x.cron = true) : Wrong s (.schedule i .cron) .noCron
  | badCron {i : Nat} {x : Schedule} (hi : s.schedules[i]? = some x)
      (hblank : Text.isAllBlank x.cron = false) (h : Cron.isValid x.cron = false) :
      Wrong s (.schedule i .cron) (.badCron x.cron)
  | email {i k : Nat} {x : Schedule} {n : Notification} {email : String}
      (hi : s.schedules[i]? = some x) (hn : x.notification = some n)
      (hk : n.emails[k]? = some email) (h : Email.isValid email = false) :
      Wrong s (.schedule i (.email k)) (.badEmail email)

/-- A file with which nothing is wrong. -/
structure Valid (s : Schedules) : Prop where
  defaultEmails : ∀ n, s.defaultNotification = some n →
    ∀ email ∈ n.emails, Email.isValid email = true
  named : ∀ x ∈ s.schedules, x.name ≠ ""
  distinct : (s.schedules.map (·.name)).Nodup
  crons : ∀ x ∈ s.schedules, Text.isAllBlank x.cron = false ∧ Cron.isValid x.cron = true
  emails : ∀ x ∈ s.schedules, ∀ n, x.notification = some n →
    ∀ email ∈ n.emails, Email.isValid email = true

variable {s : Schedules} {seen : List String} {x : Schedule}

/-- A file is valid if and only if nothing is wrong at any place. -/
theorem valid_iff : s.Valid ↔ ∀ place problem, ¬ s.Wrong place problem := by
  constructor
  · rintro hvalid place problem (⟨hn, hk, h⟩ | ⟨hi, h⟩ | ⟨hi, hj, hlt, h⟩ | ⟨hi, h⟩ | ⟨hi, _, h⟩ |
      ⟨hi, hn, hk, h⟩)
    · exact Bool.false_ne_true (h.symm.trans
        (hvalid.defaultEmails _ hn _ (List.mem_of_getElem? hk)))
    · exact hvalid.named _ (List.mem_of_getElem? hi) h
    · obtain ⟨hlength, -⟩ := List.getElem?_eq_some_iff.1 hi
      refine List.nodup_iff_getElem?_ne_getElem?.1 hvalid.distinct _ _ hlt
        (by rwa [List.length_map]) ?_
      rw [List.getElem?_map, List.getElem?_map, hi, hj, Option.map_some, Option.map_some, h]
    · exact Bool.false_ne_true ((hvalid.crons _ (List.mem_of_getElem? hi)).1.symm.trans h)
    · exact Bool.false_ne_true (h.symm.trans (hvalid.crons _ (List.mem_of_getElem? hi)).2)
    · exact Bool.false_ne_true (h.symm.trans
        (hvalid.emails _ (List.mem_of_getElem? hi) _ hn _ (List.mem_of_getElem? hk)))
  · intro hno
    constructor
    · intro n hn email hemail
      obtain ⟨k, hk⟩ := List.mem_iff_getElem?.1 hemail
      exact Bool.eq_true_of_not_eq_false fun h => hno _ _ (.defaultEmail hn hk h)
    · intro x hx h
      obtain ⟨i, hi⟩ := List.mem_iff_getElem?.1 hx
      exact hno _ _ (.noName hi h)
    · -- A name that occurs twice is a problem of the later place.
      rw [List.nodup_iff_getElem?_ne_getElem?]
      intro j i hlt hlength h
      rw [List.length_map] at hlength
      have hi := List.getElem?_eq_getElem hlength
      have hj := List.getElem?_eq_getElem (hlt.trans hlength)
      rw [List.getElem?_map, List.getElem?_map, hi, hj] at h
      exact hno _ _ (.repeatedName hi hj hlt (Option.some.inj h))
    · intro x hx
      obtain ⟨i, hi⟩ := List.mem_iff_getElem?.1 hx
      have hblank : Text.isAllBlank x.cron = false :=
        Bool.eq_false_of_not_eq_true fun h => hno _ _ (.noCron hi h)
      exact ⟨hblank, Bool.eq_true_of_not_eq_false fun h => hno _ _ (.badCron hi hblank h)⟩
    · intro x hx n hn email hemail
      obtain ⟨i, hi⟩ := List.mem_iff_getElem?.1 hx
      obtain ⟨k, hk⟩ := List.mem_iff_getElem?.1 hemail
      exact Bool.eq_true_of_not_eq_false fun h => hno _ _ (.email hi hn hk h)

/-! ## §2 Place by place -/

/-- The addresses of a notification, if there is one. -/
def emailsOf (n : Option Notification) : List String := (n.map (·.emails)).getD []

/-- What is wrong with an address. -/
def emailProblem? (email : String) : Option Problem :=
  if Email.isValid email then none else some (.badEmail email)

/-- What is wrong with the times of a schedule. -/
def cronProblem? (cron : String) : Option Problem :=
  if Text.isAllBlank cron then some .noCron
  else if Cron.isValid cron then none
  else some (.badCron cron)

/-- What is wrong with an aspect of a schedule; `seen` are the names of the schedules before it. -/
def aspectProblem? (seen : List String) (x : Schedule) : Aspect → Option Problem
  | .named => if x.name.isEmpty then some .noName else none
  | .unique => if x.name ∈ seen then some (.repeatedName x.name) else none
  | .cron => cronProblem? x.cron
  | .email k => (emailsOf x.notification)[k]?.bind emailProblem?

/-- The names of the schedules before a position. -/
def namesBefore (s : Schedules) (i : Nat) : List String := (s.schedules.take i).map (·.name)

/-- What is wrong at a place. -/
def problemAt? (s : Schedules) : Place → Option Problem
  | .defaultEmail k => (emailsOf s.defaultNotification)[k]?.bind emailProblem?
  | .schedule i aspect => s.schedules[i]?.bind fun x => aspectProblem? (s.namesBefore i) x aspect

theorem emailsOf_getElem?_eq_some_iff {n : Option Notification} {k : Nat} {email : String} :
    (emailsOf n)[k]? = some email ↔ ∃ m, n = some m ∧ m.emails[k]? = some email := by
  cases n <;> simp [emailsOf]

theorem emailProblem?_eq_some_iff {email : String} {problem : Problem} :
    emailProblem? email = some problem ↔
      Email.isValid email = false ∧ .badEmail email = problem := by
  rw [emailProblem?]
  split <;> simp_all

theorem cronProblem?_eq_some_iff {cron : String} {problem : Problem} :
    cronProblem? cron = some problem ↔
      Text.isAllBlank cron = true ∧ .noCron = problem ∨
        Text.isAllBlank cron = false ∧ Cron.isValid cron = false ∧ .badCron cron = problem := by
  rw [cronProblem?]
  split
  · simp_all
  · split <;> simp_all

theorem mem_namesBefore_iff {i : Nat} {name : String} :
    name ∈ s.namesBefore i ↔ ∃ j < i, ∃ y, s.schedules[j]? = some y ∧ y.name = name := by
  rw [namesBefore, List.mem_map]
  constructor
  · rintro ⟨y, hy, hname⟩
    obtain ⟨j, hj⟩ := List.mem_iff_getElem?.1 hy
    rw [List.getElem?_take] at hj
    split at hj
    · next hlt => exact ⟨j, hlt, y, hj, hname⟩
    · cases hj
  · rintro ⟨j, hlt, y, hj, hname⟩
    refine ⟨y, List.mem_iff_getElem?.2 ⟨j, ?_⟩, hname⟩
    rw [List.getElem?_take, if_pos hlt, hj]

/-- What is computed for a place is what is wrong there. -/
theorem wrong_iff {place : Place} {problem : Problem} :
    s.Wrong place problem ↔ s.problemAt? place = some problem := by
  constructor
  · rintro (⟨hn, hk, h⟩ | ⟨hi, h⟩ | ⟨hi, hj, hlt, h⟩ | ⟨hi, h⟩ | ⟨hi, hblank, h⟩ | ⟨hi, hn, hk, h⟩)
    · rw [problemAt?, emailsOf_getElem?_eq_some_iff.2 ⟨_, hn, hk⟩]
      exact emailProblem?_eq_some_iff.2 ⟨h, rfl⟩
    · simp [problemAt?, hi, aspectProblem?, h]
    · have hseen := mem_namesBefore_iff.2 ⟨_, hlt, _, hj, h⟩
      simp [problemAt?, hi, aspectProblem?, hseen]
    · simp [problemAt?, hi, aspectProblem?, cronProblem?_eq_some_iff, h]
    · simp [problemAt?, hi, aspectProblem?, cronProblem?_eq_some_iff, hblank, h]
    · simp only [problemAt?, hi, aspectProblem?, Option.bind_some]
      rw [emailsOf_getElem?_eq_some_iff.2 ⟨_, hn, hk⟩]
      exact emailProblem?_eq_some_iff.2 ⟨h, rfl⟩
  · intro h
    cases place with
    | defaultEmail k =>
      obtain ⟨email, hk, hproblem⟩ := Option.bind_eq_some_iff.1 h
      obtain ⟨n, hn, hk⟩ := emailsOf_getElem?_eq_some_iff.1 hk
      obtain ⟨hinvalid, rfl⟩ := emailProblem?_eq_some_iff.1 hproblem
      exact .defaultEmail hn hk hinvalid
    | schedule i aspect =>
      obtain ⟨x, hi, hproblem⟩ := Option.bind_eq_some_iff.1 h
      cases aspect with
      | named =>
        obtain ⟨hempty, rfl⟩ : x.name = "" ∧ Problem.noName = problem := by
          simpa [aspectProblem?] using hproblem
        exact .noName hi hempty
      | unique =>
        obtain ⟨hseen, rfl⟩ : x.name ∈ s.namesBefore i ∧ .repeatedName x.name = problem := by
          simpa [aspectProblem?] using hproblem
        obtain ⟨j, hlt, y, hj, hname⟩ := mem_namesBefore_iff.1 hseen
        exact .repeatedName hi hj hlt hname
      | cron =>
        obtain ⟨hblank, rfl⟩ | ⟨hblank, hinvalid, rfl⟩ := cronProblem?_eq_some_iff.1 hproblem
        · exact .noCron hi hblank
        · exact .badCron hi hblank hinvalid
      | email k =>
        obtain ⟨email, hk, hproblem⟩ := Option.bind_eq_some_iff.1 hproblem
        obtain ⟨n, hn, hk⟩ := emailsOf_getElem?_eq_some_iff.1 hk
        obtain ⟨hinvalid, rfl⟩ := emailProblem?_eq_some_iff.1 hproblem
        exact .email hi hn hk hinvalid

/-! ## §3 All places in order -/

/-- The aspects of a schedule. -/
def aspects (x : Schedule) : List Aspect :=
  .named :: .unique :: .cron :: (List.range (emailsOf x.notification).length).map .email

/-- The places of a file. -/
def places (s : Schedules) : List Place :=
  (List.range (emailsOf s.defaultNotification).length).map .defaultEmail ++
    s.schedules.zipIdx.flatMap fun entry => (aspects entry.1).map (.schedule entry.2)

theorem pairwise_aspects (x : Schedule) : (aspects x).Pairwise fun a b => a.rank < b.rank := by
  have hemails : ((List.range (emailsOf x.notification).length).map Aspect.email).Pairwise
      fun a b => a.rank < b.rank :=
    List.pairwise_map.2 (List.pairwise_lt_range.imp fun hlt => Nat.add_lt_add_left hlt 3)
  have hlater : ∀ b ∈ (List.range (emailsOf x.notification).length).map Aspect.email,
      3 ≤ b.rank := by
    intro b hb
    obtain ⟨k, -, rfl⟩ := List.mem_map.1 hb
    exact Nat.le_add_right 3 k
  simp only [aspects, List.pairwise_cons, List.forall_mem_cons]
  refine ⟨⟨by decide, by decide, ?_⟩, ⟨by decide, ?_⟩, ?_, hemails⟩
  · exact fun b hb => Nat.lt_of_lt_of_le (by decide) (hlater b hb)
  · exact fun b hb => Nat.lt_of_lt_of_le (by decide) (hlater b hb)
  · exact fun b hb => Nat.lt_of_lt_of_le (by decide) (hlater b hb)

/-- The places are listed in their order. -/
theorem pairwise_places (s : Schedules) : s.places.Pairwise Place.Before := by
  rw [places, List.pairwise_append]
  refine ⟨?_, ?_, ?_⟩
  · exact List.pairwise_map.2 (List.pairwise_lt_range.imp id)
  · rw [List.pairwise_flatMap]
    constructor
    · rintro ⟨x, i⟩ -
      exact List.pairwise_map.2 ((pairwise_aspects x).imp fun hlt => .inr ⟨rfl, hlt⟩)
    · -- Of different schedules, all of the one comes before all of the other.
      have hpositions : s.schedules.zipIdx.Pairwise fun a b => a.2 < b.2 := by
        rw [← List.pairwise_map (R := (· < ·)), List.zipIdx_map_snd]
        exact List.pairwise_lt_range'
      refine hpositions.imp ?_
      rintro ⟨x, i⟩ ⟨y, j⟩ hlt a ha b hb
      obtain ⟨a, -, rfl⟩ := List.mem_map.1 ha
      obtain ⟨b, -, rfl⟩ := List.mem_map.1 hb
      exact .inl hlt
  · intro a ha b hb
    obtain ⟨k, -, rfl⟩ := List.mem_map.1 ha
    obtain ⟨entry, -, hb⟩ := List.mem_flatMap.1 hb
    obtain ⟨b, -, rfl⟩ := List.mem_map.1 hb
    trivial

theorem mem_range_of_bind_getElem? {α : Type} {f : String → Option α} {l : List String} {k : Nat}
    {a : α} (h : l[k]?.bind f = some a) : k ∈ List.range l.length := by
  obtain ⟨_, hk, -⟩ := Option.bind_eq_some_iff.1 h
  exact List.mem_range.2 (List.getElem?_eq_some_iff.1 hk).1

/-- Where something is wrong there is a place. -/
theorem mem_places_of_problemAt? {place : Place} {problem : Problem}
    (h : s.problemAt? place = some problem) : place ∈ s.places := by
  rw [places, List.mem_append]
  cases place with
  | defaultEmail k => exact .inl (List.mem_map_of_mem (mem_range_of_bind_getElem? h))
  | schedule i aspect =>
    obtain ⟨x, hi, hproblem⟩ := Option.bind_eq_some_iff.1 h
    refine .inr (List.mem_flatMap.2 ⟨(x, i), List.mem_zipIdx_iff_getElem?.2 hi, ?_⟩)
    apply List.mem_map_of_mem
    cases aspect with
    | named => simp [aspects]
    | unique => simp [aspects]
    | cron => simp [aspects]
    | email k =>
      have hk := List.mem_map_of_mem (f := Aspect.email) (mem_range_of_bind_getElem? hproblem)
      simp only [aspects, List.mem_cons, hk, or_true]

/-- A list is gone through position by position. -/
theorem filterMap_range_getElem? {α β : Type} (f : α → Option β) (l : List α) :
    (List.range l.length).filterMap (fun k => l[k]?.bind f) = l.filterMap f := by
  induction l using List.reverseRecOn with
  | nil => rfl
  | append_singleton l a ih =>
    have hbefore : (List.range l.length).filterMap (fun k => (l ++ [a])[k]?.bind f) =
        (List.range l.length).filterMap (fun k => l[k]?.bind f) :=
      List.filterMap_congr fun k hk => by rw [List.getElem?_append_left (List.mem_range.1 hk)]
    rw [List.length_append, List.length_singleton, List.range_succ, List.filterMap_append,
      List.filterMap_append, hbefore, ih]
    simp only [List.filterMap_cons, List.getElem?_concat_length, Option.bind_some,
      List.filterMap_nil]

theorem emailProblems_eq (n : Option Notification) :
    emailProblems n =
      (List.range (emailsOf n).length).filterMap fun k => (emailsOf n)[k]?.bind emailProblem? :=
  (filterMap_range_getElem? emailProblem? (emailsOf n)).symm

theorem cronProblems_eq (cron : String) : cronProblems cron = (cronProblem? cron).toList := by
  unfold cronProblems cronProblem?
  split
  · rfl
  · split <;> rfl

theorem scheduleProblems_eq (seen : List String) (x : Schedule) :
    scheduleProblems seen x = (aspects x).filterMap (aspectProblem? seen x) := by
  -- The checks are written out one after the other, and each is the check of one aspect.
  have hnamed : (if x.name.isEmpty then [Problem.noName] else []) =
      (aspectProblem? seen x .named).toList := by
    rw [aspectProblem?]
    split <;> rfl
  have hunique : (if x.name ∈ seen then [Problem.repeatedName x.name] else []) =
      (aspectProblem? seen x .unique).toList := by
    rw [aspectProblem?]
    split <;> rfl
  have hemails : emailProblems x.notification =
      ((List.range (emailsOf x.notification).length).map Aspect.email).filterMap
        (aspectProblem? seen x) := by
    rw [emailProblems_eq, List.filterMap_map]
    rfl
  have hcons : ∀ (a : Aspect) (rest : List Aspect),
      (a :: rest).filterMap (aspectProblem? seen x) =
        (aspectProblem? seen x a).toList ++ rest.filterMap (aspectProblem? seen x) := by
    intro a rest
    cases h : aspectProblem? seen x a <;> simp [h]
  rw [scheduleProblems, hnamed, hunique, cronProblems_eq, hemails, aspects, hcons, hcons, hcons,
    List.append_assoc, List.append_assoc]
  rfl

/-- Of the schedules before it, only their names matter to a schedule. -/
theorem scheduleProblems_congr {seen' : List String} (h : x.name ∈ seen ↔ x.name ∈ seen') :
    scheduleProblems seen x = scheduleProblems seen' x := by
  simp only [scheduleProblems, h]

theorem listProblems_append (seen : List String) (l l' : List Schedule) :
    listProblems seen (l ++ l') =
      listProblems seen l ++ listProblems ((l.map (·.name)).reverse ++ seen) l' := by
  induction l generalizing seen with
  | nil => rfl
  | cons x l ih => simp [listProblems, ih]

/-- Each schedule is compared with those before it. -/
theorem listProblems_eq (l : List Schedule) :
    listProblems [] l = l.zipIdx.flatMap fun entry =>
      scheduleProblems ((l.take entry.2).map (·.name)) entry.1 := by
  -- From the end: one schedule more changes nothing for those before it.
  induction l using List.reverseRecOn with
  | nil => rfl
  | append_singleton l x ih =>
    have hbefore : (l.zipIdx.flatMap fun entry =>
          scheduleProblems (((l ++ [x]).take entry.2).map (·.name)) entry.1) =
        l.zipIdx.flatMap fun entry =>
          scheduleProblems ((l.take entry.2).map (·.name)) entry.1 := by
      apply List.flatMap_congr
      intro entry hentry
      obtain ⟨hlt, -⟩ := List.getElem?_eq_some_iff.1 (List.mem_zipIdx_iff_getElem?.1 hentry)
      rw [List.take_append_of_le_length (Nat.le_of_lt hlt)]
    have hlast : listProblems ((l.map (·.name)).reverse ++ []) [x] =
        scheduleProblems (l.map (·.name)) x := by
      rw [listProblems, listProblems, List.append_nil, List.append_nil]
      exact scheduleProblems_congr List.mem_reverse
    rw [listProblems_append, List.zipIdx_append, List.flatMap_append, hbefore, ih, hlast]
    simp

/-- Validation goes through the places and tells what is wrong there. -/
theorem problems_eq (s : Schedules) : s.problems = s.places.filterMap s.problemAt? := by
  have hdefault : emailProblems s.defaultNotification =
      ((List.range (emailsOf s.defaultNotification).length).map Place.defaultEmail).filterMap
        s.problemAt? := by
    rw [emailProblems_eq, List.filterMap_map]
    rfl
  have hschedules : listProblems [] s.schedules =
      (s.schedules.zipIdx.flatMap fun entry =>
        (aspects entry.1).map (Place.schedule entry.2)).filterMap s.problemAt? := by
    rw [listProblems_eq, List.filterMap_flatMap]
    apply List.flatMap_congr
    rintro ⟨x, i⟩ hentry
    have hi : s.schedules[i]? = some x := List.mem_zipIdx_iff_getElem?.1 hentry
    rw [scheduleProblems_eq, List.filterMap_map]
    apply List.filterMap_congr
    intro a _
    simp [problemAt?, hi, namesBefore]
  rw [problems, hdefault, hschedules, places, List.filterMap_append]

/-- What is wrong with a file, each with its place. -/
def findings (s : Schedules) : List (Place × Problem) :=
  s.places.filterMap fun place => (s.problemAt? place).map (place, ·)

theorem pairwise_findings (s : Schedules) :
    s.findings.Pairwise fun a b => a.1.Before b.1 := by
  refine s.pairwise_places.filterMap _ ?_
  intro a b hbefore p hp q hq
  obtain ⟨_, -, rfl⟩ := Option.map_eq_some_iff.1 hp
  obtain ⟨_, -, rfl⟩ := Option.map_eq_some_iff.1 hq
  exact hbefore

theorem mem_findings_iff {place : Place} {problem : Problem} :
    (place, problem) ∈ s.findings ↔ s.Wrong place problem := by
  rw [wrong_iff, findings, List.mem_filterMap]
  constructor
  · rintro ⟨place', -, h⟩
    obtain ⟨problem', hproblem, heq⟩ := Option.map_eq_some_iff.1 h
    cases heq
    exact hproblem
  · intro h
    exact ⟨place, mem_places_of_problemAt? h, Option.map_eq_some_iff.2 ⟨problem, h, rfl⟩⟩

theorem map_snd_findings (s : Schedules) : s.findings.map Prod.snd = s.problems := by
  rw [findings, List.map_filterMap, problems_eq]
  simp

/-- Nothing is told about a file if and only if it is valid. -/
theorem problems_eq_nil_iff : s.problems = [] ↔ s.Valid := by
  rw [valid_iff, ← map_snd_findings, List.map_eq_nil_iff, List.eq_nil_iff_forall_not_mem,
    Prod.forall]
  exact forall₂_congr fun _ _ => not_congr mem_findings_iff

/-! ## §4 Repeated names -/

/-- Does a message tell that a name is repeated? -/
def tellsRepeated (message : String) : Bool :=
  " is not unique. All the schedules name should be unique.".toList.isSuffixOf message.toList

/-- Is the problem that a name is repeated? -/
def Problem.isRepeatedName : Problem → Bool
  | .repeatedName _ => true
  | _ => false

/-- Only the message about a repeated name ends with a full stop. -/
theorem tellsRepeated_message (p : Problem) : tellsRepeated p.message = p.isRepeatedName := by
  -- What is before the end may be any text of the file, so the last character has to tell.
  have hlast : ∀ {before after : List Char} {c : Char}, after.getLast? = some c → c ≠ '.' →
      " is not unique. All the schedules name should be unique.".toList.isSuffixOf
        (before ++ after) = false := by
    intro before after c hc hne
    rw [Bool.eq_false_iff, ne_eq, List.isSuffixOf_iff_suffix]
    rintro ⟨t, ht⟩
    have hend := congrArg List.getLast? ht
    rw [List.getLast?_append, List.getLast?_append, hc] at hend
    have hdot : " is not unique. All the schedules name should be unique.".toList.getLast? =
        some '.' := by decide +kernel
    rw [hdot] at hend
    exact hne (Option.some.inj hend).symm
  rw [tellsRepeated]
  cases p with
  | badEmail email =>
    rw [Problem.message, String.toList_append]
    exact hlast (c := 's') (by decide +kernel) (by decide)
  | noName => decide +kernel
  | repeatedName name =>
    rw [Problem.message, String.toList_append]
    exact List.isSuffixOf_iff_suffix.2 (List.suffix_append _ _)
  | noCron => decide +kernel
  | badCron cron =>
    rw [Problem.message, String.toList_append]
    exact hlast (c := 'n') (by decide +kernel) (by decide)

theorem countP_emailProblems (n : Option Notification) :
    (emailProblems n).countP Problem.isRepeatedName = 0 := by
  rw [List.countP_eq_zero]
  intro p hp
  obtain ⟨email, -, hproblem⟩ := List.mem_filterMap.1 hp
  obtain ⟨-, rfl⟩ := emailProblem?_eq_some_iff.1 hproblem
  exact Bool.false_ne_true

/-- A schedule is told to have a repeated name once, and only if it has one. -/
theorem countP_scheduleProblems (seen : List String) (x : Schedule) :
    (scheduleProblems seen x).countP Problem.isRepeatedName = if x.name ∈ seen then 1 else 0 := by
  have hnamed : (if x.name.isEmpty then [Problem.noName] else []).countP
      Problem.isRepeatedName = 0 := by
    split <;> rfl
  have hcron : (cronProblems x.cron).countP Problem.isRepeatedName = 0 := by
    unfold cronProblems
    split
    · rfl
    · split <;> rfl
  rw [scheduleProblems, List.countP_append, List.countP_append, List.countP_append, hnamed, hcron,
    countP_emailProblems]
  split <;> rfl

/-- Each schedule either has a name that was not there before or is told to repeat one. -/
theorem countP_listProblems (seen : List String) (l : List Schedule) :
    (listProblems seen l).countP Problem.isRepeatedName +
      ((l.map (·.name)).reverse ++ seen).toFinset.card = l.length + seen.toFinset.card := by
  induction l generalizing seen with
  | nil => simp [listProblems]
  | cons x l ih =>
    have hrest := ih (x.name :: seen)
    have hcard : (x.name :: seen).toFinset.card =
        seen.toFinset.card + if x.name ∈ seen then 0 else 1 := by
      rw [List.toFinset_cons]
      split
      · next hmem => rw [Finset.insert_eq_of_mem (List.mem_toFinset.2 hmem), Nat.add_zero]
      · next hmem => rw [Finset.card_insert_of_notMem (mt List.mem_toFinset.1 hmem)]
    have hnames : ((x :: l).map (·.name)).reverse ++ seen =
        (l.map (·.name)).reverse ++ x.name :: seen := by
      simp
    rw [listProblems, List.countP_append, countP_scheduleProblems, hnames, List.length_cons]
    rw [hcard] at hrest
    split at hrest
    -- A name is told to be repeated, or it is one name more.
    · next hmem => rw [if_pos hmem]; omega
    · next hmem => rw [if_neg hmem]; omega

/-- Of the schedules, as many are told to repeat a name as there are more schedules than names. -/
theorem countP_problems (s : Schedules) :
    s.problems.countP Problem.isRepeatedName + (s.schedules.map (·.name)).toFinset.card =
      s.schedules.length := by
  have hlist := countP_listProblems [] s.schedules
  rw [List.append_nil, List.toFinset_reverse, List.toFinset_nil, Finset.card_empty,
    Nat.add_zero] at hlist
  rw [problems, List.countP_append, countP_emailProblems, Nat.zero_add]
  exact hlist

/-- Nothing is told about a file if and only if it is valid; otherwise all that is wrong is told,
once each and in the order of the file; and repeated names are told as often as there are more
schedules than names. -/
theorem problems_exact (s : Schedules) :
    (s.problems.map Problem.message = [] ↔ s.Valid) ∧
      (∃ found : List (Place × Problem),
        found.Pairwise (fun a b => a.1.Before b.1) ∧
          (∀ place problem, (place, problem) ∈ found ↔ s.Wrong place problem) ∧
          s.problems.map Problem.message = found.map fun entry => entry.2.message) ∧
      (s.problems.map Problem.message).countP tellsRepeated +
        (s.schedules.map (·.name)).toFinset.card = s.schedules.length := by
  refine ⟨List.map_eq_nil_iff.trans problems_eq_nil_iff, ?_, ?_⟩
  · refine ⟨s.findings, s.pairwise_findings, fun _ _ => mem_findings_iff, ?_⟩
    rw [← map_snd_findings, List.map_map]
    rfl
  · have hcount : (s.problems.map Problem.message).countP tellsRepeated =
        s.problems.countP Problem.isRepeatedName := by
      rw [List.countP_map]
      exact List.countP_congr fun p _ => by rw [Function.comp_apply, tellsRepeated_message]
    rw [hcount, s.countP_problems]

/-- An empty name can be repeated too, and none of the problems of a schedule hides another. -/
example :
    problems
      { schedules :=
          [ { name := "", cron := "@daily" },
            { name := "", cron := " ", notification := some { emails := ["a", "a@b.org"] } } ] } =
      [.noName, .noName, .repeatedName "", .noCron, .badEmail "a"] := by
  decide +kernel

end SqlWorkflow.Schedules
