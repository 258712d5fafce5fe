import CuttingPlanes.Proofs.Exact
import CuttingPlanes.Proofs.Loop.Course
import CuttingPlanes.Proofs.Separator.Survey

/-! Every policy finds a violated candidate where there is one, and adds that one alone. -/

namespace CuttingPlanes

variable {σ ν ρ γ μ : Type} {view : σ → ν}

/-- The candidates that one call adds, the latest first. -/
def Separator.additionsOf [Measure μ] (separator : Separator σ γ μ) (fuel : Nat) (state : Tally × σ) :
    List γ :=
  Happening.additions ((separator.noted.call fuel).run (state.1, [], state.2)).state.2.1

/-- An absent measure never counts as a violation. -/
class LawfulMeasure (μ : Type) [Measure μ] : Prop where
  countsTrue_of_absent : ∀ measure : μ,
    Measure.present measure = false → Measure.countsTrue measure = false

instance : LawfulMeasure Datum where
  countsTrue_of_absent := by
    rintro (_ | _ | _ | _ | _ | _ | _ | _) absent
    · rfl
    all_goals cases absent

instance {K : Type} [Scalar K] : LawfulMeasure (Option K) where
  countsTrue_of_absent := by
    rintro (_ | _) absent
    · rfl
    · cases absent

/--
A policy over candidates whose measures depend on a view of the state.

Nothing of it fails but the draws and the commits, apart from running out of turns.
-/
structure Inquiry (ρ : Type) [Measure μ] (view : σ → ν) (worth : ν → γ → μ) where
  policy : Policy
  family : Family σ γ μ
  exceeds : μ → μ → Action σ Bool
  reorder : Source σ γ → Action σ (Source σ γ)
  draw : Random.Draw ρ
  fuel : Nat
  /-- The candidates that are enumerated from a state on. -/
  members : σ → List γ
  enumerates : ∀ state, Action.Ensures family.enumerate state
    (fun cause => cause = .unfinished ∧ fuel ≤ (members state).length) fun source after =>
      source.Yields view (view state) (members state) ∧ view after = view state
  measures : ∀ asked, ∀ candidate ∈ members asked, ∀ state, view state = view asked →
    Action.Ensures (family.measure candidate) state (fun _ => False) fun measure after =>
      measure = worth (view asked) candidate ∧ view after = view asked
  compares : policy = .deepest → ∀ asked, ∀ best ∈ members asked, ∀ candidate ∈ members asked,
    Measure.present (worth (view asked) best) → Measure.present (worth (view asked) candidate) →
      ∀ state, view state = view asked →
        Action.Ensures (exceeds (worth (view asked) best) (worth (view asked) candidate)) state
          (fun _ => False) fun _ after => view after = view asked
  reorders : policy = .first → ∀ source items state, source.Yields view (view state) items →
    Action.Ensures (reorder source) state
      (fun cause => cause = .unfinished ∧ fuel ≤ items.length) fun turned after =>
        (∃ order, turned.Yields view (view state) order ∧ order.Perm items) ∧
          view after = view state

namespace Inquiry

variable [Measure μ] {worth : ν → γ → μ} (inquiry : Inquiry ρ view worth)

/-- The separator that an inquiry is made with. -/
def separator : Separator (Rotation ρ × σ) γ μ :=
  .ofPolicy inquiry.policy inquiry.family inquiry.exceeds inquiry.reorder inquiry.draw inquiry.fuel

/-- Whether a candidate is violated in a state, as the policy sees it. -/
def violates (state : σ) (candidate : γ) : Bool :=
  inquiry.policy.regards (worth (view state) candidate)

/-- Only what is in view decides what is violated. -/
theorem violates_congr {state state' : σ} (same : view state = view state') (candidate : γ) :
    inquiry.violates state candidate = inquiry.violates state' candidate := by
  rw [violates, violates, same]

/-- The search of a policy regards what the policy regards. -/
theorem regards_separator : inquiry.separator.search.regards = inquiry.policy.regards :=
  Separator.regards_ofPolicy _ _

/-- Every policy measures and compares beside the rotation. -/
theorem surveys (state : σ) :
    inquiry.separator.Surveys (fun pair => view pair.2) (view state) (inquiry.members state)
      (worth (view state)) := by
  refine ⟨fun candidate member pair same => ?_, fun exceeds deepest => ?_⟩
  · rw [separator, Separator.ofPolicy_measure, Action.ensures_onSecond]
    exact inquiry.measures state candidate member pair.2 same
  · obtain ⟨policy, rfl⟩ := Separator.deepest_of_ofPolicy _ _ deepest
    intro best among candidate member held present pair same
    exact Action.ensures_onSecond.2
      (inquiry.compares policy state best among candidate member held present pair.2 same)

/-- Every policy enumerates the candidates in some order. -/
theorem enumerates_ensures {allowed : Interrupt → Prop} {inUse : ρ → Prop} {rotation : Rotation ρ}
    (serves : inquiry.policy = .shuffled → inquiry.draw.Serves allowed inUse)
    (ready : inquiry.policy = .shuffled → inUse rotation.generator) (state : σ) :
    Action.Ensures inquiry.separator.family.enumerate (rotation, state)
      (fun cause => allowed cause ∨
        cause = .unfinished ∧ inquiry.fuel ≤ (inquiry.members state).length)
      fun source after => (∃ order, source.Yields (fun pair => view pair.2) (view state) order ∧
        order.Perm (inquiry.members state)) ∧ view after.2 = view state := by
  have produced := (inquiry.enumerates state).weaken fun cause short =>
    (.inr short : allowed cause ∨ cause = .unfinished ∧
      inquiry.fuel ≤ (inquiry.members state).length)
  unfold separator
  cases policy : inquiry.policy with
  | deepest =>
    -- The candidates come as they are enumerated.
    simp only [Separator.ofPolicy, Separator.deepest, Separator.onSecond, Family.onSecond,
      Action.ensures_map, Action.ensures_onSecond]
    exact produced.mono fun source after given => ⟨⟨_, given.1.onSecond, .refl _⟩, given.2⟩
  | first =>
    simp only [Separator.ofPolicy, Separator.first, Separator.onSecond, Family.onSecond,
      Family.reordered, Action.ensures_map, Action.ensures_onSecond, Action.ensures_bind]
    refine produced.mono ?_
    rintro source after ⟨yields, same⟩
    rw [← same] at yields
    refine ((inquiry.reorders policy source _ after yields).weaken fun cause => .inr).mono ?_
    rintro turned last ⟨⟨order, yields, perm⟩, still⟩
    rw [same] at yields still
    exact ⟨⟨order, yields.onSecond, perm⟩, still⟩
  | shuffled =>
    simp only [Separator.ofPolicy, Separator.shuffled, Family.onSecond, Family.reordered,
      Action.ensures_bind, Action.ensures_map, Action.ensures_onSecond]
    refine produced.mono ?_
    rintro source after ⟨yields, same⟩
    rw [← same] at yields
    -- All candidates are produced before the draw.
    refine (Rotation.reorder_ensures_of_yields (serves policy) (ready policy)
      (yields.beside rotation)).mono ?_
    rintro turned last ⟨⟨order, lists, perm⟩, still, -⟩
    exact ⟨⟨order, lists.yields _ _, perm⟩, still.trans same⟩

/-- One call adds one violated candidate, or says that there is none. -/
theorem call_meets (tally : Tally) (history : List (Happening γ μ)) (rotation : Rotation ρ)
    (state : σ) {allowed : Interrupt → Prop} {inUse : ρ → Prop}
    (serves : inquiry.policy = .shuffled → inquiry.draw.Serves allowed inUse)
    (ready : inquiry.policy = .shuffled → inUse rotation.generator) :
    Action.Meets (inquiry.separator.noted.call inquiry.fuel) (tally, history, rotation, state)
      (fun added after => Separator.Answered inquiry.policy.regards (worth (view state))
        (inquiry.members state) (Happening.additions history) (fun pair => view pair.2) (view state)
        added after.2)
      fun cause _ => (allowed cause ∨
        cause = .unfinished ∧ inquiry.fuel ≤ (inquiry.members state).length) ∨
          ∃ candidate ∈ inquiry.members state, inquiry.violates state candidate = true := by
  have met := (inquiry.surveys state).call_meets (inquiry.enumerates_ensures serves ready state)
    (fun short => .inr ⟨rfl, short⟩) tally history
  -- The policy regards what its search regards.
  rwa [inquiry.regards_separator] at met

/-- One call commits one violated candidate where the family is, or finds that there is none. -/
theorem call_commits (tally : Tally) (rotation : Rotation ρ) (state : σ)
    {allowed : Interrupt → Prop} {inUse : ρ → Prop}
    (serves : inquiry.policy = .shuffled → inquiry.draw.Serves allowed inUse)
    (ready : inquiry.policy = .shuffled → inUse rotation.generator) :
    Action.Meets (inquiry.separator.call inquiry.fuel) (tally, rotation, state)
      (fun added after =>
        if added then ∃ candidate ∈ inquiry.members state,
          inquiry.violates state candidate = true ∧ ∃ begun, view begun = view state ∧
            (inquiry.family.commit candidate).ends begun = (.ok (), after.2.2)
        else view after.2.2 = view state ∧
          ∀ candidate ∈ inquiry.members state, inquiry.violates state candidate = false)
      fun cause after => (allowed cause ∨
        cause = .unfinished ∧ inquiry.fuel ≤ (inquiry.members state).length) ∨
          ∃ candidate ∈ inquiry.members state, inquiry.violates state candidate = true ∧
            ∃ begun, view begun = view state ∧
              (inquiry.family.commit candidate).ends begun = (.error cause, after.2.2) := by
  have met := (inquiry.surveys state).call_commits
    (inquiry.enumerates_ensures serves ready state) (fun short => .inr ⟨rfl, short⟩) tally []
  rw [inquiry.regards_separator] at met
  -- What is committed is committed beside the rotation.
  have beside : ∀ candidate result (after : Rotation ρ × σ),
      Separator.Committed inquiry.separator.family (fun pair => view pair.2) (view state) candidate
        result after →
      ∃ begun, view begun = view state ∧
        (inquiry.family.commit candidate).ends begun = (result, after.2) := by
    rintro candidate result after ⟨⟨first, begun⟩, same, ended⟩
    rw [separator, Separator.ofPolicy_commit, Action.ends_onSecond] at ended
    obtain ⟨given, rfl⟩ := Prod.mk.inj ended
    exact ⟨begun, same, Prod.ext given rfl⟩
  refine (Separator.meets_call []).2 (met.imp ?_ ?_)
  · rintro (_ | _) after called
    · exact called
    · obtain ⟨candidate, member, violated, -, committed⟩ := called
      exact ⟨candidate, member, violated, beside _ _ _ committed⟩
  · rintro cause after (refused | ⟨candidate, member, violated, committed⟩)
    · exact .inl refused
    · exact .inr ⟨candidate, member, violated, beside _ _ _ committed⟩

/-- One call of an inquiry, from counters, a rotation and a state on. -/
def answer (tally : Tally) (rotation : Rotation ρ) (state : σ) : Except Interrupt Bool :=
  ((inquiry.separator.call inquiry.fuel).run (tally, rotation, state)).result

/-- What the answer of an inquiry says of the candidates in the state in which it is made. -/
structure Truthful (tally : Tally) (rotation : Rotation ρ) (state : σ) : Prop where
  none_of_false : inquiry.answer tally rotation state = .ok false →
    ∀ candidate ∈ inquiry.members state, inquiry.violates state candidate = false
  /-- Nothing violated is found where there are turns for all candidates and offsets to turn by. -/
  false_of_none : (inquiry.members state).length < inquiry.fuel →
    (inquiry.policy = .shuffled → ∃ inUse, inquiry.draw.Serves (fun _ => False) inUse ∧
      inUse rotation.generator) →
    (∀ candidate ∈ inquiry.members state, inquiry.violates state candidate = false) →
      inquiry.answer tally rotation state = .ok false
  one_of_true : inquiry.answer tally rotation state = .ok true →
    ∃ candidate ∈ inquiry.members state, inquiry.violates state candidate = true ∧
      inquiry.separator.additionsOf inquiry.fuel (tally, rotation, state) = [candidate]

/-- The call that is noted gives the same answer. -/
theorem answer_eq (tally : Tally) (rotation : Rotation ρ) (state : σ) :
    inquiry.answer tally rotation state =
      ((inquiry.separator.noted.call inquiry.fuel).run (tally, [], rotation, state)).result :=
  ((inquiry.separator.shows_noted.call inquiry.fuel).result_eq (tally, [], rotation, state)).symm

theorem truthful (tally : Tally) (rotation : Rotation ρ) (state : σ) :
    inquiry.Truthful tally rotation state := by
  -- Whatever the draws do, an answer that is given is right.
  have anyway := inquiry.call_meets tally [] rotation state
    (fun _ => inquiry.draw.serves_trivial) fun _ => trivial
  refine ⟨fun no => ?_, fun enough draws none => ?_, fun yes => ?_⟩
  · -- A call that has found nothing has seen all candidates.
    rw [answer_eq] at no
    exact (anyway.of_ok no).2
  · -- Only a shuffled policy draws at all.
    obtain ⟨inUse, serves, ready⟩ := Random.Draw.exists_inUse draws
    rw [answer_eq]
    rcases Action.meets_iff.1 (inquiry.call_meets tally [] rotation state serves ready) with
      ⟨added, given, answered⟩ | ⟨cause, -, (⟨⟨⟩⟩ | ⟨-, short⟩) | ⟨candidate, member, violated⟩⟩
    · cases added with
      | false => exact given
      | true =>
        -- What is added is violated, and nothing is.
        obtain ⟨candidate, member, violated, -⟩ := answered
        exact absurd violated (Bool.eq_false_iff.1 (none candidate member))
    · omega
    · exact absurd violated (Bool.eq_false_iff.1 (none candidate member))
  · rw [answer_eq] at yes
    exact anyway.of_ok yes

/-- An answer is no where no candidate is violated. -/
theorem answer_eq_false {tally : Tally} {rotation : Rotation ρ} {state : σ} {answer : Bool}
    (given : inquiry.answer tally rotation state = .ok answer) :
    answer = false ↔
      ∀ candidate ∈ inquiry.members state, inquiry.violates state candidate = false := by
  have truthful := inquiry.truthful tally rotation state
  cases answer with
  | false => exact iff_of_true rfl (truthful.none_of_false given)
  | true =>
    -- The candidate that was added speaks against it.
    obtain ⟨candidate, member, violated, -⟩ := truthful.one_of_true given
    exact iff_of_false Bool.noConfusion fun none =>
      Bool.noConfusion (violated.symm.trans (none candidate member))

/-- What a policy regards does not depend on it where no measure is there but counts as nothing. -/
theorem violates_eq [LawfulMeasure μ] {ρ' : Type} (other : Inquiry ρ' view worth) {state : σ}
    {candidate : γ}
    (exactly : Measure.countsTrue (worth (view state) candidate) = false →
      Measure.present (worth (view state) candidate) = false) :
    inquiry.violates state candidate = other.violates state candidate := by
  have same : Measure.countsTrue (worth (view state) candidate) =
      Measure.present (worth (view state) candidate) := by
    cases counts : Measure.countsTrue (worth (view state) candidate) with
    | false => exact (exactly counts).symm
    | true =>
      -- An absent measure would not have counted.
      cases present : Measure.present (worth (view state) candidate) with
      | true => rfl
      | false => exact counts.symm.trans (LawfulMeasure.countsTrue_of_absent _ present)
  unfold violates
  cases inquiry.policy <;> cases other.policy <;> simp [Policy.regards, same]

/-- Inquiries into the same candidates agree where no measure is there but counts as nothing. -/
theorem answer_eq_answer [LawfulMeasure μ] {ρ' : Type} (other : Inquiry ρ' view worth)
    {state state' : σ} (seen : view state' = view state)
    (same : ∀ candidate, candidate ∈ inquiry.members state ↔ candidate ∈ other.members state')
    (exactly : ∀ candidate ∈ inquiry.members state,
      Measure.countsTrue (worth (view state) candidate) = false →
        Measure.present (worth (view state) candidate) = false)
    {tally tally' : Tally} {rotation : Rotation ρ} {rotation' : Rotation ρ'} {answer answer' : Bool}
    (given : inquiry.answer tally rotation state = .ok answer)
    (given' : other.answer tally' rotation' state' = .ok answer') : answer = answer' := by
  have alike : ∀ candidate ∈ inquiry.members state,
      inquiry.violates state candidate = other.violates state' candidate := by
    intro candidate member
    exact (inquiry.violates_eq other (exactly candidate member)).trans
      (other.violates_congr seen.symm candidate)
  -- Both have answered by whether there is a violated candidate.
  have both : answer = false ↔ answer' = false := by
    rw [inquiry.answer_eq_false given, other.answer_eq_false given']
    refine ⟨fun none candidate member => ?_, fun none candidate member => ?_⟩
    · have among := (same candidate).2 member
      exact (alike candidate among).symm.trans (none candidate among)
    · exact (alike candidate member).trans (none candidate ((same candidate).1 member))
  cases answer <;> cases answer' <;> simp at both ⊢

variable {R S : Type}

/-- The loop that solves and makes inquiries in turn. -/
def task (solve : Action (Tally × Rotation ρ × σ) R) (optimal : S) :
    Task (Tally × Rotation ρ × σ) R S Bool :=
  inquiry.separator.task inquiry.fuel solve optimal

variable [HasStatus R S] [Status S]

/-- Where a loop has passed, its last inquiry has found nothing violated. -/
def passing (solve : Action (Tally × Rotation ρ × σ) R) (optimal : S) (turns : Nat) :
    (inquiry.task solve optimal).Course turns where
  holds
    | .passed _ _, state => ∃ asked, view asked = view state.2.2 ∧
        ∀ candidate ∈ inquiry.members asked, inquiry.violates state.2.2 candidate = false
    | _, _ => True
  failed _ _ := True
  solves _ _ := (Action.ensures_trivial _ _).meets (fun _ _ => id) fun _ _ _ => trivial
  separates := by
    rintro count result ⟨tally, rotation, state⟩ - - -
    refine (Separator.meets_call []).2 ((inquiry.call_meets tally [] rotation state
      (fun _ => inquiry.draw.serves_trivial) fun _ => trivial).imp ?_ fun _ _ _ => trivial)
    -- Only a search that finds nothing ends the loop.
    intro added after answered
    cases added with
    | true => trivial
    | false =>
      obtain ⟨same, none⟩ := answered
      refine ⟨state, same.symm, fun candidate member => ?_⟩
      exact (inquiry.violates_congr same candidate).trans (none candidate member)
  spent _ := trivial

/-- A loop that ends as awaited leaves no candidate of its last search violated. -/
theorem unviolated_of_optimal {solve : Action (Tally × Rotation ρ × σ) R} {optimal : S}
    {turns : Nat} {start : Tally × Rotation ρ × σ} {status : S}
    (ended : (((inquiry.task solve optimal).alternate turns).run start).result = .ok status)
    (awaited : (inquiry.task solve optimal).isOptimal status = true) :
    ∃ asked,
      view asked = view (((inquiry.task solve optimal).alternate turns).run start).state.2.2 ∧
      ∀ candidate ∈ inquiry.members asked, inquiry.violates
        (((inquiry.task solve optimal).alternate turns).run start).state.2.2 candidate = false := by
  have begun : (inquiry.passing solve optimal turns).holds (.before 0) start := trivial
  have met := (inquiry.passing solve optimal turns).alternate_meets (Nat.add_zero turns) begun
  obtain ⟨count, result, -, held⟩ := met.of_ok ended
  rwa [if_pos awaited] at held

omit [HasStatus R S] [Status S] in
/--
No policy overlooks a violated candidate.

An answer says whether there is one, and one that there is has been added alone. Where no measure is
there but counts as nothing, the answer depends neither on the policy nor on the order in which the
candidates are enumerated, reordered, compared or drawn. A loop that ends as awaited leaves no
candidate violated.
-/
theorem finds_violations [LawfulMeasure μ] :
    (∀ tally rotation state, inquiry.Truthful tally rotation state) ∧
    (∀ {ρ' : Type} (other : Inquiry ρ' view worth) {state state' : σ}, view state' = view state →
      (∀ candidate, candidate ∈ inquiry.members state ↔ candidate ∈ other.members state') →
      (∀ candidate ∈ inquiry.members state,
        Measure.countsTrue (worth (view state) candidate) = false →
          Measure.present (worth (view state) candidate) = false) →
      ∀ {tally tally' rotation rotation' answer answer'},
        inquiry.answer tally rotation state = .ok answer →
        other.answer tally' rotation' state' = .ok answer' → answer = answer') ∧
    ∀ {R S : Type} [HasStatus R S] [Status S] (solve : Action (Tally × Rotation ρ × σ) R)
      (optimal : S) {turns : Nat} {start : Tally × Rotation ρ × σ} {status : S},
      (((inquiry.task solve optimal).alternate turns).run start).result = .ok status →
      (inquiry.task solve optimal).isOptimal status = true →
        ∃ asked,
          view asked = view (((inquiry.task solve optimal).alternate turns).run start).state.2.2 ∧
          ∀ candidate ∈ inquiry.members asked, inquiry.violates
            (((inquiry.task solve optimal).alternate turns).run start).state.2.2 candidate = false :=
  ⟨inquiry.truthful, fun other _ _ seen same exactly _ _ _ _ _ _ given given' =>
    inquiry.answer_eq_answer other seen same exactly given given',
    fun _ _ _ _ _ ended awaited => inquiry.unviolated_of_optimal ended awaited⟩

end Inquiry

/-- What is written at a position of a list, where something is. -/
def writtenAt (list : List (Option ℚ)) (position : Nat) : Option ℚ := list[position]?.join

/-- The positions of a list as candidates, each with what is written there as its measure. -/
def Family.written : Family (List (Option ℚ)) Nat (Option ℚ) where
  enumerate := do return Source.ofList (List.range (← Action.get).length)
  measure candidate := do return writtenAt (← Action.get) candidate
  commit candidate := Action.modify fun list => list.set candidate none
  describe := toString

namespace Inquiry

/-- An inquiry into what is written in a list, with offsets that are as great as they may be. -/
def written (policy : Policy) :
    Inquiry Unit (id : List (Option ℚ) → List (Option ℚ)) writtenAt where
  policy := policy
  family := .written
  exceeds best measure := pure (decide (best.getD 0 < measure.getD 0))
  reorder := pure
  draw last := pure (.int last)
  fuel := 8
  members list := List.range list.length
  enumerates list := ⟨(Source.lists_ofList _).yields _ _, rfl⟩
  measures := by
    rintro asked candidate - _ rfl
    exact ⟨rfl, rfl⟩
  compares := by
    rintro - asked best - candidate - - - _ rfl
    rfl
  reorders _ source items state yields := ⟨⟨items, yields, .refl _⟩, rfl⟩

/-- The positions of short lists are looked through under every policy. -/
theorem finds_violations_written :
    (written .shuffled).answer .zero ⟨(), none⟩ [none, none] = .ok false ∧
    (∃ candidate ∈ (written .first).members [none, some 2],
      (written .first).violates [none, some 2] candidate = true ∧
        (written .first).separator.additionsOf 8 (.zero, ⟨(), none⟩, [none, some 2]) =
          [candidate]) ∧
    (∃ answer, (written .deepest).answer .zero ⟨(), none⟩ [none, some 2] = .ok answer ∧
      (written .shuffled).answer .zero ⟨(), none⟩ [none, some 2] = .ok answer) ∧
    ∃ asked : List (Option ℚ), id asked = id ((((written .first).task (pure LpStatus.optimal)
        LpStatus.optimal).alternate 4).run (.zero, ⟨(), none⟩, [some 1, some 2])).state.2.2 ∧
      ∀ candidate ∈ (written .first).members asked, (written .first).violates
        ((((written .first).task (pure LpStatus.optimal) LpStatus.optimal).alternate 4).run
          (.zero, ⟨(), none⟩, [some 1, some 2])).state.2.2 candidate = false := by
  refine ⟨?_, ?_, ?_, ?_⟩
  · -- Offsets that are whole numbers serve.
    refine ((written .shuffled).finds_violations.1 _ _ _).false_of_none (by decide)
      (fun _ => ⟨fun _ => True, fun _ _ _ => ⟨trivial, nofun⟩, trivial⟩) (by decide)
  · exact ((written .first).finds_violations.1 _ _ _).one_of_true rfl
  · obtain ⟨answer, given⟩ :
        ∃ answer, (written .deepest).answer .zero ⟨(), none⟩ [none, some 2] = .ok answer :=
      ⟨true, rfl⟩
    obtain ⟨answer', given'⟩ :
        ∃ answer, (written .shuffled).answer .zero ⟨(), none⟩ [none, some 2] = .ok answer :=
      ⟨true, rfl⟩
    have same := (written .deepest).finds_violations.2.1 (written .shuffled) rfl
      (fun _ => Iff.rfl) (by decide) given given'
    exact ⟨answer, given, same ▸ given'⟩
  · exact (written .first).finds_violations.2.2 _ _ rfl rfl

end Inquiry

end CuttingPlanes
