import CuttingPlanes.Proofs.Action
import CuttingPlanes.Rotation
import Mathlib.Data.ENat.Basic

/-! Sources that produce the members of a list, and the turned ones among them. -/

namespace CuttingPlanes

/-- Turns that were used up do not exceed a bound. -/
def Interrupt.Warranted (cause : Interrupt) (turns : Nat) (bound : ℕ∞) : Prop :=
  cause = .unfinished → turns ≤ bound

/-- A computation that is never out of turns gives no reason to doubt a bound. -/
theorem Action.Ensures.warranted {σ α : Type} {action : Action σ α} {state : σ}
    {promised : α → σ → Prop} (kept : Ensures action state (· ≠ .unfinished) promised)
    (turns : Nat) (bound : ℕ∞) : Ensures action state (·.Warranted turns bound) promised :=
  kept.weaken fun _ going spent => absurd spent going

namespace Source

variable {σ τ ν γ : Type} {source : Source σ γ} {items : List γ} {state : σ}
  {allowed : Interrupt → Prop}

/-- A source produces the members of a list and does nothing else. -/
def Lists (source : Source σ γ) (items : List γ) : Prop :=
  ∀ position, source.next position = pure items[position]?

theorem lists_ofList (items : List γ) : (ofList items : Source σ γ).Lists items :=
  ofList_next items

theorem Lists.onSecond (lists : source.Lists items) :
    (source.onSecond : Source (τ × σ) γ).Lists items := by
  intro position
  show (source.next position).onSecond = _
  rw [lists, Action.onSecond_pure]

/-- Collecting gives the rest of the list, if the turns suffice. -/
theorem Lists.collectFrom_ensures (lists : source.Lists items) {fuel position : Nat}
    (within : position ≤ items.length)
    (enough : allowed .unfinished ∨ items.length < fuel + position) :
    Action.Ensures (source.collectFrom fuel position) state allowed fun members after =>
      members = items.drop position ∧ after = state := by
  -- Each turn asks for one member, and one more turn finds that there is none.
  induction fuel generalizing position with
  | zero =>
    have spent : allowed .unfinished := enough.resolve_right (by omega)
    simpa [collectFrom] using spent
  | succ fuel ih =>
    simp only [collectFrom, lists position, Action.ensures_bind, Action.ensures_pure]
    rcases Nat.lt_or_ge position items.length with inside | behind
    · have later : allowed .unfinished ∨ items.length < fuel + (position + 1) :=
        enough.imp_right (by omega)
      have rest := ih (Nat.succ_le_of_lt inside) later
      simp only [List.getElem?_eq_getElem inside, Action.ensures_bind, Action.ensures_pure]
      refine rest.mono fun members after collected => ⟨?_, collected.2⟩
      rw [collected.1, ← List.drop_eq_getElem_cons]
    · simp [List.getElem?_eq_none behind, List.drop_eq_nil_of_le behind]

theorem Lists.collect_ensures (lists : source.Lists items) {fuel : Nat}
    (enough : allowed .unfinished ∨ items.length < fuel) :
    Action.Ensures (source.collect fuel) state allowed fun members after =>
      members = items ∧ after = state :=
  lists.collectFrom_ensures (Nat.zero_le _) enough

/-- A source produces the members of a list wherever a view of the state is as it was. -/
def Yields (source : Source σ γ) (view : σ → ν) (kept : ν) (items : List γ) : Prop :=
  ∀ position state, view state = kept →
    Action.Ensures (source.next position) state (fun _ => False) fun found after =>
      found = items[position]? ∧ view after = kept

variable {view : σ → ν} {kept : ν}

theorem Lists.yields (lists : source.Lists items) (view : σ → ν) (kept : ν) :
    source.Yields view kept items := by
  intro position state same
  rw [lists]
  exact ⟨rfl, same⟩

theorem Yields.onSecond (yields : source.Yields view kept items) :
    (source.onSecond : Source (τ × σ) γ).Yields (fun pair => view pair.2) kept items :=
  fun position pair same => Action.ensures_onSecond.2 (yields position pair.2 same)

/-- A source on a part of the state keeps what is beside it as well. -/
theorem Yields.beside (yields : source.Yields view kept items) (first : τ) :
    (source.onSecond : Source (τ × σ) γ).Yields (Prod.map id view) (first, kept) items := by
  rintro position ⟨other, state⟩ same
  obtain ⟨rfl, seen⟩ := Prod.mk.inj same
  refine Action.ensures_onSecond.2 ((yields position state seen).mono fun found after given => ?_)
  exact ⟨given.1, Prod.ext rfl given.2⟩

/-- Collecting gives what is still to come, if the turns suffice. -/
theorem Yields.collectFrom_ensures (yields : source.Yields view kept items) {fuel position : Nat}
    (within : position ≤ items.length) (same : view state = kept) :
    Action.Ensures (source.collectFrom fuel position) state
      (fun cause => cause = .unfinished ∧ fuel + position ≤ items.length) fun members after =>
        members = items.drop position ∧ view after = kept := by
  induction fuel generalizing position state with
  | zero => exact ⟨rfl, by omega⟩
  | succ fuel ih =>
    simp only [collectFrom, Action.ensures_bind]
    refine (Action.Ensures.weaken (yields position state same) fun _ => False.elim).mono ?_
    rintro _ after ⟨rfl, same⟩
    rcases Nat.lt_or_ge position items.length with inside | behind
    · -- One member is taken off the front, and the rest is collected behind it.
      simp only [List.getElem?_eq_getElem inside, Action.ensures_bind, Action.ensures_pure]
      refine Action.Ensures.weaken ((ih inside same).mono fun members last collected => ?_) ?_
      · exact ⟨by rw [collected.1, ← List.drop_eq_getElem_cons], collected.2⟩
      · rintro cause ⟨spent, long⟩
        exact ⟨spent, by omega⟩
    · simp [List.getElem?_eq_none behind, List.drop_eq_nil_of_le behind, same]

/-- A source offers only candidates among some, up to a bound where there is one. -/
def Offers (source : Source σ γ) (kept : σ → Prop) (among : γ → Prop) (bound : ℕ∞) : Prop :=
  ∀ position state, kept state →
    Action.Ensures (source.next position) state (· ≠ .unfinished) fun found after =>
      (∀ candidate ∈ found, among candidate ∧ (position + 1 : Nat) ≤ bound) ∧ kept after

variable {holds : σ → Prop} {among : γ → Prop} {bound : ℕ∞}

theorem offers_ofList (holds : σ → Prop) (within : ∀ candidate ∈ items, among candidate)
    (short : items.length ≤ bound) : (ofList items : Source σ γ).Offers holds among bound := by
  intro position state held
  rw [ofList_next]
  refine ⟨fun candidate found => ⟨within candidate (List.mem_of_getElem? found), ?_⟩, held⟩
  obtain ⟨inside, -⟩ := List.getElem?_eq_some_iff.1 found
  exact (Nat.cast_le.2 inside).trans short

theorem Offers.mono (offers : source.Offers holds among bound) {more : ℕ∞} (least : bound ≤ more) :
    source.Offers holds among more :=
  fun position state held => (offers position state held).mono fun _ _ given =>
    ⟨fun candidate found => (given.1 candidate found).imp_right fun within => within.trans least,
      given.2⟩

/-- A source on a part of the state leaves alone what is beside it. -/
theorem Offers.beside (offers : source.Offers holds among bound) (other : τ → Prop) :
    (source.onSecond : Source (τ × σ) γ).Offers (fun pair => other pair.1 ∧ holds pair.2) among
      bound := by
  rintro position ⟨first, state⟩ ⟨left, right⟩
  refine Action.ensures_onSecond.2 ((offers position state right).mono fun found after given => ?_)
  exact ⟨given.1, left, given.2⟩

/-- All that is offered can be collected, if the turns suffice. -/
theorem Offers.collectFrom_ensures (offers : source.Offers holds among bound)
    {fuel position : Nat} (within : position ≤ bound) (held : holds state) :
    Action.Ensures (source.collectFrom fuel position) state (·.Warranted (fuel + position) bound)
      fun members after => (∀ candidate ∈ members, among candidate) ∧
        (members.length + position : Nat) ≤ bound ∧ holds after := by
  induction fuel generalizing position state with
  | zero => exact fun _ => by simpa using within
  | succ fuel ih =>
    simp only [collectFrom, Action.ensures_bind]
    refine ((offers position state held).warranted _ _).mono ?_
    rintro found after ⟨offered, held⟩
    cases found with
    | none => exact ⟨by simp, by simpa using within, held⟩
    | some candidate =>
      -- What is offered lies within the bound, so that the rest starts within it.
      obtain ⟨member, next⟩ := offered candidate rfl
      simp only [Action.ensures_bind, Action.ensures_pure]
      rw [Nat.add_right_comm]
      refine (ih next held).mono fun members last rest => ?_
      refine ⟨List.forall_mem_cons.2 ⟨member, rest.1⟩, ?_, rest.2.2⟩
      simpa only [List.length_cons, Nat.add_right_comm, Nat.add_assoc] using rest.2.1

end Source

/-- Turning a list only changes the order of its members. -/
theorem rotate_perm {α : Type} (items : List α) (offset : Int) :
    (rotate items offset).Perm items := by
  unfold rotate
  exact List.perm_append_comm.trans (by rw [List.take_append_drop])

namespace Random

/-- Draws by generators in use leave generators in use and give values that serve as offsets. -/
def Draw.Serves {ρ : Type} (draw : Draw ρ) (allowed : Interrupt → Prop) (inUse : ρ → Prop) : Prop :=
  ∀ count generator, inUse generator →
    Action.Ensures (draw count) generator allowed fun offset after =>
      inUse after ∧ ∀ fault, offsetOf offset = .error fault → allowed (.raised fault)

/-- Nothing is asked of draws where every failure is allowed. -/
theorem Draw.serves_trivial {ρ : Type} (draw : Draw ρ) :
    draw.Serves (fun _ => True) fun _ => True :=
  fun _ _ _ => (Action.ensures_trivial _ _).mono fun _ _ _ => ⟨trivial, fun _ _ => trivial⟩

/-- Where nothing is drawn, all generators are as good as ones in use. -/
theorem Draw.exists_inUse {ρ : Type} {draw : Draw ρ} {allowed : Interrupt → Prop} {generator : ρ}
    {drawn : Prop} (draws : drawn → ∃ inUse, draw.Serves allowed inUse ∧ inUse generator) :
    ∃ inUse, (drawn → draw.Serves allowed inUse) ∧ (drawn → inUse generator) := by
  by_cases known : drawn
  · obtain ⟨inUse, serves, ready⟩ := draws known
    exact ⟨inUse, fun _ => serves, fun _ => ready⟩
  · exact ⟨fun _ => True, fun drawn => absurd drawn known, fun _ => trivial⟩

/-- A seeded generator serves when its draws end, since whole numbers are offsets. -/
theorem Generator.serves_of_ends {allowed : Interrupt → Prop} {inUse : Twister → Prop} {fuel : Nat}
    (ends : ∀ last twister, inUse twister →
      Action.Ensures (Twister.upTo last fuel) twister allowed fun _ after => inUse after) :
    (draw fuel).Serves allowed fun generator => ∃ twister, generator = .seeded twister ∧
      inUse twister := by
  rintro last _ ⟨twister, rfl, ready⟩
  have drawn := ends last twister ready
  simp only [Action.Ensures, draw, Action.run] at drawn ⊢
  -- A draw that ends gives its number on, and one that fails fails for the same cause.
  cases made : (Twister.upTo last fuel twister).result with
  | ok number =>
    rw [made] at drawn
    exact ⟨⟨_, rfl, drawn⟩, fun fault failed => by cases failed⟩
  | error cause =>
    rw [made] at drawn
    exact drawn

/-- Drawing bits never fails. -/
theorem Twister.bits_ensures {allowed : Interrupt → Prop} (count : Nat) (twister : Twister) :
    Action.Ensures (bits count) twister allowed fun _ _ => True := by
  have word_ensures : ∀ twister, Action.Ensures word twister allowed fun _ _ => True :=
    fun _ => trivial
  -- Each whole word leaves fewer bits to draw.
  induction count using Nat.strongRecOn generalizing twister with
  | ind count ih =>
    rw [bits]
    split
    · simp only [Action.ensures_bind, Action.ensures_pure]
      exact word_ensures twister
    · simp only [Action.ensures_bind, Action.ensures_pure]
      exact (word_ensures twister).mono fun _ after _ => ih (count - 32) (by omega) after

/-- Drawing a number can only run out of turns. -/
theorem Twister.below_ensures (bound fuel : Nat) (twister : Twister) :
    Action.Ensures (below bound fuel) twister (fun cause => cause = .unfinished)
      fun _ _ => True := by
  induction fuel generalizing twister with
  | zero => rfl
  | succ fuel ih =>
    rw [below, Action.ensures_bind]
    refine (bits_ensures _ twister).mono fun drawn after _ => ?_
    -- A number that is too great costs a turn.
    split
    · trivial
    · exact ih after

/-- A seeded generator can only run out of turns. -/
theorem Generator.serves_seeded (fuel : Nat) :
    (draw fuel).Serves (fun cause => cause = .unfinished) fun generator =>
      ∃ twister, generator = .seeded twister := by
  have ends (last : Nat) (twister : Twister) (_ : True) :=
    Twister.below_ensures (last + 1) fuel twister
  simpa using serves_of_ends ends

end Random

namespace Rotation

variable {ρ σ γ : Type} {draw : Random.Draw ρ} {allowed : Interrupt → Prop} {inUse : ρ → Prop}
  {rotation : Rotation ρ}

theorem drawOffset_ensures (serves : draw.Serves allowed inUse) (ready : inUse rotation.generator)
    (count : Nat) :
    Action.Ensures (drawOffset draw count) rotation allowed fun offset after =>
      inUse after.generator ∧
        ∀ fault, offsetOf offset = .error fault → allowed (.raised fault) := by
  -- A failed draw leaves its generator behind as well, but no offset.
  have drawn := serves count rotation.generator ready
  simp only [Action.Ensures, drawOffset, Action.run] at drawn ⊢
  cases made : (draw count rotation.generator).result with
  | ok offset => simpa [made] using drawn
  | error cause => simpa [made] using drawn

/-- A list is turned by what has been drawn. -/
theorem apply_ensures (serves : draw.Serves allowed inUse) (ready : inUse rotation.generator)
    (items : List γ) :
    Action.Ensures (apply draw items) rotation allowed fun turned after =>
      turned.Perm items ∧ inUse after.generator := by
  simp only [apply, Action.ensures_bind]
  refine (drawOffset_ensures serves ready items.length).mono fun offset after drawn => ?_
  rw [Action.ensures_ofExcept, rotateBy]
  -- The empty list takes any value, and other lists only those that serve as offsets.
  by_cases empty : items.isEmpty
  · rw [if_pos empty, List.isEmpty_iff.1 empty]
    exact ⟨List.Perm.refl [], drawn.1⟩
  · rw [if_neg empty]
    cases given : offsetOf offset with
    | ok whole => exact ⟨rotate_perm items whole, drawn.1⟩
    | error fault => exact drawn.2 fault given

/-- A source is reordered into one of the same members. -/
theorem reorder_ensures (serves : draw.Serves allowed inUse) (ready : inUse rotation.generator)
    {state : σ} {source : Source (Rotation ρ × σ) γ} {items : List γ} (lists : source.Lists items)
    {fuel : Nat} (enough : allowed .unfinished ∨ items.length < fuel) :
    Action.Ensures (reorder draw fuel source) (rotation, state) allowed fun turned after =>
      (∃ order, turned.Lists order ∧ order.Perm items) ∧
        inUse after.1.generator ∧ after.2 = state := by
  simp only [reorder, Action.ensures_bind, Action.ensures_pure, Action.ensures_onFirst]
  -- The source is emptied before the first draw.
  refine (lists.collect_ensures enough).mono fun members after collected => ?_
  obtain ⟨rfl, rfl⟩ := collected
  refine (apply_ensures serves ready members).mono fun turned after applied => ?_
  exact ⟨⟨turned, Source.lists_ofList turned, applied.1⟩, applied.2, rfl⟩

/-- A source is emptied before the first draw, and then reordered into one of the same members. -/
theorem reorder_ensures_of_yields {ν : Type} {view : σ → ν} {state : σ}
    (serves : draw.Serves allowed inUse) (ready : inUse rotation.generator)
    {source : Source (Rotation ρ × σ) γ} {items : List γ}
    (yields : source.Yields (Prod.map id view) (rotation, view state) items) {fuel : Nat} :
    Action.Ensures (reorder draw fuel source) (rotation, state)
      (fun cause => allowed cause ∨ cause = .unfinished ∧ fuel ≤ items.length)
      fun turned after =>
        (∃ order, turned.Lists order ∧ order.Perm items) ∧ view after.2 = view state ∧
          inUse after.1.generator := by
  simp only [reorder, Action.ensures_bind, Action.ensures_pure, Action.ensures_onFirst]
  -- Too few turns show while the source is emptied, and a draw may fail after that.
  refine ((yields.collectFrom_ensures (Nat.zero_le _) rfl).weaken fun cause => .inr).mono ?_
  rintro members ⟨other, after⟩ ⟨rfl, same⟩
  obtain ⟨rfl, seen⟩ := Prod.mk.inj same
  refine ((apply_ensures serves ready _).weaken fun _ => .inl).mono fun turned last applied => ?_
  exact ⟨⟨turned, Source.lists_ofList turned, applied.1⟩, seen, applied.2⟩

/-- A source is emptied before the first draw, and then reordered into one that offers as much. -/
theorem reorder_ensures_of_offers {holds : σ → Prop} {among : γ → Prop} {bound : ℕ∞}
    (fuel : Nat) (serves : draw.Serves (· ≠ .unfinished) inUse) (ready : inUse rotation.generator)
    {state : σ} (held : holds state) {source : Source (Rotation ρ × σ) γ}
    (offers : source.Offers (fun pair => pair.1 = rotation ∧ holds pair.2) among bound)
    (kept : Rotation ρ × σ → Prop) :
    Action.Ensures (reorder draw fuel source) (rotation, state) (·.Warranted fuel bound)
      fun turned after =>
        turned.Offers kept among bound ∧ inUse after.1.generator ∧ holds after.2 := by
  simp only [reorder, Action.ensures_bind, Action.ensures_pure, Action.ensures_onFirst]
  refine (offers.collectFrom_ensures (Nat.cast_zero.trans_le zero_le) ⟨rfl, held⟩).mono ?_
  rintro members ⟨_, after⟩ ⟨within, short, rfl, held⟩
  -- The members are all there before the draw, which only changes their order.
  refine ((apply_ensures serves ready members).warranted _ _).mono fun turned last applied => ?_
  refine ⟨Source.offers_ofList kept (fun candidate member => ?_) ?_, applied.2, held⟩
  · exact within candidate (applied.1.mem_iff.1 member)
  · rw [applied.1.length_eq]
    exact short

end Rotation

end CuttingPlanes
