import SqlWorkflow.Template.Evaluate

/-!
# What an evaluation costs

Where an evaluation takes the same steps whatever its host does, what it does is known from the
number of its steps (`Eval.Spends`): with that much fuel it writes its text, gives its value and
changes its host, and with less it runs out of fuel.

- **§1** The steps of evaluations one after the other.
- **§2** What is written, and what is written aside.
- **§3** So it is with templates (`exists_render_eq_ok`, `render_outOfFuel`).
-/

namespace SqlWorkflow.Template

/-! ## §1 Steps -/

namespace Output

@[simp] theorem write_empty (o : Output) : o.write "" = o := by
  obtain ⟨written, asides⟩ := o
  match asides with
  | [] | some _ :: _ => simp [write]
  | none :: _ => rfl

@[simp] theorem write_write (o : Output) (text more : String) :
    (o.write text).write more = o.write (text ++ more) := by
  obtain ⟨written, asides⟩ := o
  match asides with
  | [] | some _ :: _ => simp [write, String.append_assoc]
  | none :: _ => rfl

end Output

namespace Eval

variable {σ α β : Type}

/-- The evaluation that takes some steps, writes a text, changes the host and gives a value. -/
def spend (steps : Nat) (text : String) (change : σ → σ) (a : α) : Eval σ α := do
  burn steps
  write text
  modify fun m => { m with host := change m.host }
  return a

/-- In the given frames, where texts are not escaped, an evaluation takes some steps, writes a text,
changes the host and gives a value. -/
def Spends (frames : List Frame) (x : Eval σ α) (steps : Nat) (text : String) (change : σ → σ)
    (a : α) : Prop :=
  ∀ m : Machine σ, m.frames = frames → m.escaping = false → x m = spend steps text change a m

variable {frames : List Frame} {x : Eval σ α} {f : α → Eval σ β} {steps more : Nat}
  {text text' : String} {change further : σ → σ} {a : α} {b : β} {m : Machine σ}

/-- The fuel is enough for some steps, or it is not. -/
theorem enough_or_not (fuel : Option Nat) (steps : Nat) :
    (∀ left ∈ fuel, steps ≤ left) ∨ ∃ left ∈ fuel, left < steps := by
  cases fuel with
  | none => exact .inl fun _ h => nomatch h
  | some left =>
    rcases Nat.lt_or_ge left steps with hlt | hge
    · exact .inr ⟨left, rfl, hlt⟩
    · exact .inl fun _ h => Option.some.inj h ▸ hge

theorem spend_of_le (h : ∀ left ∈ m.fuel, steps ≤ left) :
    spend steps text change a m = .ok (a, { m with
      fuel := m.fuel.map (· - steps), output := m.output.write text, host := change m.host }) := by
  have hburn : (ofStep (burn steps) : Eval σ Unit) m =
      .ok ((), { m with fuel := m.fuel.map (· - steps) }) := by
    cases hfuel : m.fuel with
    | none =>
      simp only [ofStep, burn, hfuel, Option.map_none]
      rw [← hfuel]
    | some left =>
      have hle : ¬ left < steps := Nat.not_lt.2 (h left hfuel)
      simp only [ofStep, burn, hfuel, if_neg hle, Option.map_some]
  change Except.bind ((ofStep (burn steps) : Eval σ Unit) m) _ = _
  rw [hburn]
  rfl

theorem spend_of_lt (h : ∃ left ∈ m.fuel, left < steps) :
    spend steps text change a m = .error { cause := .outOfFuel } := by
  obtain ⟨left, hfuel, hlt⟩ := h
  have hburn : (ofStep (burn steps) : Eval σ Unit) m = .error { cause := .outOfFuel } := by
    simp only [ofStep, burn, Option.mem_def.1 hfuel, if_pos hlt]
  change Except.bind ((ofStep (burn steps) : Eval σ Unit) m) _ = _
  rw [hburn]
  rfl

namespace Spends

/-- What takes no steps writes its text and changes its host, whatever the fuel. -/
theorem of_eq_ok (h : ∀ m : Machine σ, m.frames = frames → m.escaping = false →
    x m = .ok (a, { m with output := m.output.write text, host := change m.host })) :
    Spends frames x 0 text change a := by
  intro m hm hplain
  rw [h m hm hplain, spend_of_le fun _ _ => Nat.zero_le _]
  simp

protected theorem pure (a : α) : Spends frames (pure a : Eval σ α) 0 "" id a :=
  of_eq_ok fun m _ _ => by
    rw [Output.write_empty]
    rfl

protected theorem burn (steps : Nat) :
    Spends frames (ofStep (burn steps) : Eval σ Unit) steps "" id () := by
  intro m _ _
  change ofStep (burn steps) m = (ofStep (burn steps) m).bind _
  cases ofStep (burn steps) m with
  | error fault => rfl
  | ok result =>
    change _ = Except.ok ((), { result.2 with output := result.2.output.write "" })
    rw [Output.write_empty]

/-- A change of the host takes no steps. -/
protected theorem modify (change : σ → σ) :
    Spends frames (modify fun m => { m with host := change m.host } : Eval σ Unit) 0 "" change () :=
  of_eq_ok fun m _ _ => by
    rw [Output.write_empty]
    rfl

/-- One evaluation after the other: the steps and the texts add up, and the host changes twice. -/
protected theorem bind (hx : Spends frames x steps text change a)
    (hf : Spends frames (f a) more text' further b) :
    Spends frames (x >>= f) (steps + more) (text ++ text') (further ∘ change) b := by
  intro m hm hplain
  change (x m).bind _ = _
  rw [hx m hm hplain]
  -- The fuel ends in the first evaluation, in the second one, or in neither.
  rcases enough_or_not m.fuel steps with hfirst | hfirst
  · rw [spend_of_le hfirst]
    let spent : Machine σ := { m with
      fuel := m.fuel.map (· - steps), output := m.output.write text, host := change m.host }
    change f a spent = _
    rw [hf spent hm hplain]
    rcases enough_or_not m.fuel (steps + more) with hsecond | ⟨left, hleft, hlt⟩
    · have hmore : ∀ left ∈ spent.fuel, more ≤ left := by
        intro left hleft
        obtain ⟨before, hbefore, rfl⟩ := Option.map_eq_some_iff.1 hleft
        have := hsecond before hbefore
        omega
      rw [spend_of_le hsecond, spend_of_le hmore]
      simp [spent, Function.comp_def, Nat.sub_sub]
    · have := hfirst left hleft
      rw [spend_of_lt ⟨left, hleft, hlt⟩,
        spend_of_lt ⟨left - steps, Option.map_eq_some_iff.2 ⟨left, hleft, rfl⟩, by omega⟩]
  · obtain ⟨left, hleft, hlt⟩ := hfirst
    rw [spend_of_lt ⟨left, hleft, hlt⟩, spend_of_lt ⟨left, hleft, Nat.lt_add_right more hlt⟩]
    rfl

theorem congr (h : Spends frames x steps text change a) (hsteps : steps = more)
    (htext : text = text') (hchange : change = further) :
    Spends frames x more text' further a := by
  subst hsteps htext hchange
  exact h

/-- What takes no steps does not fail, so the place of its failures does not matter. -/
theorem located (h : Spends frames x 0 text change a) (file : String) (line : Nat) :
    Spends frames (Eval.located file line x) 0 text change a := by
  intro m hm hplain
  have hx := h m hm hplain
  rw [spend_of_le fun _ _ => Nat.zero_le _] at hx ⊢
  simp only [Eval.located, hx]

/-! ## §2 Output -/

theorem write (text : String) :
    Spends frames (ofStep (Eval.write text) : Eval σ Unit) 0 text id () :=
  of_eq_ok fun _ _ _ => rfl

/-- A text that is not escaped is written as it stands. -/
theorem emit (text : String) :
    Spends frames (ofStep (Eval.emit (.text text)) : Eval σ Unit) 0 text id () :=
  of_eq_ok fun m _ hplain => by
    obtain ⟨⟨⟩, host⟩ := m
    subst hplain
    rfl

/-- What an evaluation writes aside is the value of writing it, and nothing else is written. -/
theorem capturing {x : Eval σ Unit} (h : Spends frames x steps text change ()) :
    Spends frames (Eval.capturing x) steps "" change (.text text) := by
  intro m hm hplain
  let aside : Machine σ := { m with output := m.output.turnAside true }
  have hx := h aside hm hplain
  change (x aside).bind _ = _
  rw [hx]
  rcases enough_or_not m.fuel steps with hfuel | hfuel
  · rw [spend_of_le hfuel, spend_of_le (m := aside) hfuel, Output.write_empty]
    obtain ⟨⟨⟩, host⟩ := m
    subst hplain
    -- Nothing stood aside before.
    change Except.ok (Value.text ("" ++ text), _) = _
    rw [String.empty_append]
    rfl
  · rw [spend_of_lt hfuel, spend_of_lt (m := aside) hfuel]
    rfl

end Spends

end Eval

/-! ## §3 Templates -/

variable {σ : Type} {env : Environment σ} {file source : String} {stmts : List Stmt}
  {values : List (String × Value)} {steps : Nat} {text : String} {change : σ → σ}

/-- A template that extends no other one does what its statements do. -/
theorem runLayer_eq {calls : Calls σ} {layer : Layer} {m : Machine σ}
    (h : Eval.Spends m.frames (execAll { env, calls, file := layer.file } layer.body) steps text
      change ()) (hplain : m.escaping = false) (hparent : m.parent = none) :
    runLayer env calls layer m = Eval.spend steps text change () m := by
  obtain ⟨⟨frames, cells, loops, fuel, depth, output, escaping, blocks, block, loaded, parent⟩,
    host⟩ := m
  obtain rfl : parent = none := hparent
  have hbody := h _ rfl hplain
  change Except.bind (Except.bind (execAll _ _ _) _) _ = _
  rw [hbody]
  rcases Eval.enough_or_not fuel steps with hfuel | hfuel
  · rw [Eval.spend_of_le hfuel]
    rfl
  · rw [Eval.spend_of_lt hfuel]
    rfl

/-- The state in which a template starts. -/
def start (fuel : Option Nat) (file : String) (stmts : List Stmt) (values : List (String × Value))
    (host : σ) : Machine σ where
  frames := [{ base := .values values }]
  fuel := fuel
  blocks := addBlocks file {} stmts
  loaded := [file]
  host := host

/-- A template whose statements take a number of steps. -/
theorem exists_render_eq (hread : read file source = .ok stmts)
    (hspends : ∀ s : Scene σ, s.env.filter? = env.filter? → ∃ text,
      Eval.Spends [{ base := .values values }] (execAll s stmts) steps text change ())
    (fuel : Option Nat) (host : σ) :
    ∃ text, render env fuel file source values host =
      (Eval.spend steps text change () (start fuel file stmts values host)).map
        fun ((), m) => (m.output.written, m.host) := by
  let loaded : Environment σ :=
    { env with load := fun name => if name = file then .ok (some source) else env.load name }
  obtain ⟨text, hrun⟩ :=
    hspends { env := loaded, calls := callsOf loaded (2 * Eval.depthLimit), file } rfl
  refine ⟨text, ?_⟩
  have hlayer : runLayer loaded (callsOf loaded (2 * Eval.depthLimit)) ⟨file, stmts⟩
      (start fuel file stmts values host) = _ := runLayer_eq hrun rfl rfl
  unfold render
  rw [hread, ← hlayer]
  change (runLayer _ _ _ (start fuel file stmts values host)).bind _ = _
  cases runLayer loaded _ _ (start fuel file stmts values host) <;> rfl

/-- With enough fuel the template changes the host. -/
theorem exists_render_eq_ok (hread : read file source = .ok stmts)
    (hspends : ∀ s : Scene σ, s.env.filter? = env.filter? → ∃ text,
      Eval.Spends [{ base := .values values }] (execAll s stmts) steps text change ())
    {fuel : Option Nat} (hfuel : ∀ left ∈ fuel, steps ≤ left) (host : σ) :
    ∃ text, render env fuel file source values host = .ok (text, change host) := by
  obtain ⟨text, hrender⟩ := exists_render_eq hread hspends fuel host
  rw [Eval.spend_of_le hfuel] at hrender
  exact ⟨_, hrender⟩

/-- With less it runs out of fuel. -/
theorem render_outOfFuel (hread : read file source = .ok stmts)
    (hspends : ∀ s : Scene σ, s.env.filter? = env.filter? → ∃ text,
      Eval.Spends [{ base := .values values }] (execAll s stmts) steps text change ())
    {fuel : Option Nat} (hfuel : ∃ left ∈ fuel, left < steps) (host : σ) :
    render env fuel file source values host = .error { cause := .outOfFuel } := by
  obtain ⟨text, hrender⟩ := exists_render_eq hread hspends fuel host
  rwa [Eval.spend_of_lt hfuel] at hrender

end SqlWorkflow.Template
