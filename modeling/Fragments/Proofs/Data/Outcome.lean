import Fragments.Failure
import Mathlib.Data.List.Forall2

namespace Fragments

theorem bind_eq_ok_iff {first : Except ε α} {next : α → Except ε β}
    {result : β} :
    (first >>= next) = .ok result ↔ ∃ value, first = .ok value ∧
      next value = .ok result := by
  cases first with
  | error problem => exact ⟨fun h => (nomatch h), fun ⟨_, h, _⟩ => (nomatch h)⟩
  | ok value => exact ⟨fun h => ⟨value, rfl, h⟩, fun ⟨_, rfl, h⟩ => h⟩

theorem bind_eq_error_iff {first : Except ε α} {next : α → Except ε β}
    {problem : ε} :
    (first >>= next) = .error problem ↔
      first = .error problem ∨ ∃ value, first = .ok value ∧
        next value = .error problem := by
  cases first with
  | error other => simp [bind, Except.bind]
  | ok value => simp [bind, Except.bind]

theorem map_eq_error_iff {first : Except ε α} {change : α → β} {problem : ε} :
    first.map change = .error problem ↔ first = .error problem := by
  cases first <;> simp [Except.map]

theorem map_eq_ok_iff {first : Except ε α} {change : α → β} {result : β} :
    first.map change = .ok result ↔ ∃ value, first = .ok value ∧
      change value = result := by
  cases first with
  | error problem => exact ⟨fun h => (nomatch h), fun ⟨_, h, _⟩ => (nomatch h)⟩
  | ok value =>
      exact ⟨fun h => ⟨value, rfl, Except.ok.inj h⟩, fun ⟨_, rfl, h⟩ =>
        congrArg Except.ok h⟩

theorem below_of_lt {levels : Nat} (hlevels : 0 < levels) (tooDeep : ε)
    (inner : Except ε α) : below levels tooDeep inner = inner :=
  if_neg (Nat.ne_of_gt hlevels)

theorem below_eq_ok_iff {levels : Nat} {tooDeep : ε} {inner : Except ε α}
    {result : α} :
    below levels tooDeep inner = .ok result ↔
      levels ≠ 0 ∧ inner = .ok result := by
  unfold below
  split
  · next hzero => simp [hzero]
  · next hpos => simp [hpos]

theorem exists_bind_ok_iff {first : Except ε α} {wrap : α → β} :
    (∃ result, (first >>= fun value => .ok (wrap value)) = .ok result) ↔
      ∃ value, first = .ok value := by
  cases first with
  | ok value => exact iff_of_true ⟨_, rfl⟩ ⟨value, rfl⟩
  | error problem =>
      exact iff_of_false (fun ⟨_, heq⟩ => by cases heq)
        fun ⟨_, heq⟩ => by cases heq

/-- An outcome of something that met nothing beyond this library. -/
def WithinLimits (outcome : Except Problem α) : Prop :=
  ∀ limit, outcome ≠ .error (.fault (.beyond limit))

theorem WithinLimits.isBeyond {outcome : Except Problem α}
    (hwithin : WithinLimits outcome) {fault : Fault}
    (heq : outcome = .error (.fault fault)) : fault.isBeyond = false := by
  cases fault with
  | beyond limit => exact absurd heq (hwithin limit)
  | _ => rfl

/-- Whatever goes wrong, if anything does, is as `allowed` says. -/
def FailsOnly (allowed : ε → Prop) (outcome : Except ε α) : Prop :=
  ∀ problem, outcome = .error problem → allowed problem

namespace FailsOnly

variable {allowed weaker : ε → Prop}

theorem ok (value : α) : FailsOnly allowed (.ok value) :=
  fun _ heq => nomatch heq

theorem error {problem : ε} (hallowed : allowed problem) :
    FailsOnly allowed (.error problem : Except ε α) := by
  rintro _ ⟨⟩
  exact hallowed

theorem bind {first : Except ε α} {next : α → Except ε β}
    (hfirst : FailsOnly allowed first)
    (hnext : ∀ value, first = .ok value → FailsOnly allowed (next value)) :
    FailsOnly allowed (first >>= next) := by
  cases hcase : first with
  | error problem => exact error (hfirst problem hcase)
  | ok value => exact hnext value hcase

theorem map {first : Except ε α} (hfirst : FailsOnly allowed first)
    (change : α → β) :
    FailsOnly allowed (first.map change) := by
  cases hcase : first with
  | error problem => exact error (hfirst problem hcase)
  | ok value => exact ok _

theorem ite {test : Prop} [Decidable test] {outcome other : Except ε α}
    (houtcome : FailsOnly allowed outcome) (hother : FailsOnly allowed other) :
    FailsOnly allowed (if test then outcome else other) := by
  split
  · exact houtcome
  · exact hother

theorem mono {outcome : Except ε α} (houtcome : FailsOnly allowed outcome)
    (hweaker : ∀ problem, allowed problem → weaker problem) :
    FailsOnly weaker outcome :=
  fun problem heq => hweaker problem (houtcome problem heq)

theorem below {levels : Nat} {tooDeep : ε} {inner : Except ε α}
    (hdeep : allowed tooDeep) (hinner : FailsOnly allowed inner) :
    FailsOnly allowed (below levels tooDeep inner) :=
  ite (error hdeep) hinner

end FailsOnly

/-- A failure is as `allowed` says, a value as `holds` says. -/
def Yields (allowed : ε → Prop) (holds : α → Prop) : Except ε α → Prop
  | .ok value => holds value
  | .error problem => allowed problem

namespace Yields

variable {allowed : ε → Prop} {holds other : α → Prop} {outcome : Except ε α}

theorem bind {after : β → Prop} {next : α → Except ε β}
    (houtcome : Yields allowed holds outcome)
    (hnext : ∀ value, holds value → Yields allowed after (next value)) :
    Yields allowed after (outcome >>= next) := by
  cases outcome with
  | error problem => exact houtcome
  | ok value => exact hnext value houtcome

theorem ite {test : Prop} [Decidable test] {alternative : Except ε α}
    (houtcome : Yields allowed holds outcome)
    (halternative : Yields allowed holds alternative) :
    Yields allowed holds (if test then outcome else alternative) := by
  split
  · exact houtcome
  · exact halternative

theorem below {levels : Nat} {tooDeep : ε} (hdeep : allowed tooDeep)
    (houtcome : Yields allowed holds outcome) :
    Yields allowed holds (below levels tooDeep outcome) :=
  ite hdeep houtcome

theorem mono (houtcome : Yields allowed holds outcome)
    (hother : ∀ value, holds value → other value) :
    Yields allowed other outcome := by
  cases outcome with
  | error problem => exact houtcome
  | ok value => exact hother value houtcome

theorem failsOnly (houtcome : Yields allowed holds outcome) :
    FailsOnly allowed outcome := by
  rintro problem rfl
  exact houtcome

end Yields

theorem toOption_eq_some_iff {outcome : Except ε α} {value : α} :
    outcome.toOption = some value ↔ outcome = .ok value := by
  cases outcome <;> simp [Except.toOption]

theorem mapM_eq_ok_iff {change : α → Except ε β} {items : List α}
    {results : List β} :
    items.mapM change = .ok results ↔
      List.Forall₂ (fun item result => change item = .ok result) items
        results := by
  induction items generalizing results with
  | nil =>
      rw [List.mapM_nil, List.forall₂_nil_left_iff]
      exact ⟨fun heq => (Except.ok.inj heq).symm, fun heq =>
        congrArg Except.ok heq.symm⟩
  | cons item rest ih =>
      rw [List.mapM_cons, bind_eq_ok_iff, List.forall₂_cons_left_iff]
      simp only [bind_eq_ok_iff, ih, pure, Except.pure, Except.ok.injEq]
      constructor
      · rintro ⟨first, hfirst, more, hmore, rfl⟩
        exact ⟨first, more, hfirst, hmore, rfl⟩
      · rintro ⟨first, more, hfirst, hmore, rfl⟩
        exact ⟨first, hfirst, more, hmore, rfl⟩

theorem mapM_eq_error_iff {change : α → Except ε β} {items : List α}
    {problem : ε} :
    items.mapM change = .error problem ↔
      ∃ before item after results, items = before ++ item :: after ∧
        before.mapM change = .ok results ∧ change item = .error problem := by
  induction items with
  | nil => simp [pure, Except.pure]
  | cons item rest ih =>
      rw [List.mapM_cons]
      constructor
      · intro hall
        cases hitem : change item with
        | error other =>
            rw [hitem] at hall
            cases hall
            exact ⟨[], item, rest, [], rfl, rfl, hitem⟩
        | ok result =>
            cases hrest : rest.mapM change with
            | ok results => rw [hitem, hrest] at hall; cases hall
            | error other =>
                rw [hitem, hrest] at hall
                cases hall
                obtain ⟨before, failing, after, results, rfl, hbefore,
                    hfailing⟩ := ih.mp hrest
                refine ⟨item :: before, failing, after, result :: results, rfl,
                  ?_, hfailing⟩
                rw [List.mapM_cons, hitem, hbefore]
                rfl
      · rintro ⟨before, failing, after, results, heq, hbefore, hfailing⟩
        cases before with
        | nil =>
            cases heq
            rw [hfailing]
            rfl
        | cons first more =>
            cases heq
            rw [List.mapM_cons] at hbefore
            obtain ⟨result, hresult, hbefore⟩ := bind_eq_ok_iff.mp hbefore
            obtain ⟨others, hothers, -⟩ := bind_eq_ok_iff.mp hbefore
            rw [hresult, ih.mpr
              ⟨more, failing, after, others, rfl, hothers, hfailing⟩]
            rfl

theorem exists_mapM_and_iff {change : α → Except ε β} {holds : β → Prop}
    {items : List α} :
    (∃ results, items.mapM change = .ok results ∧ ∀ result ∈ results,
      holds result) ↔
      ∀ item ∈ items, ∃ result, change item = .ok result ∧ holds result := by
  induction items with
  | nil =>
      refine iff_of_true ⟨[], rfl, ?_⟩ ?_ <;> exact fun _ hmem =>
        absurd hmem List.not_mem_nil
  | cons item rest ih =>
      rw [List.forall_mem_cons, ← ih]
      simp only [List.mapM_cons, bind_eq_ok_iff]
      constructor
      · rintro ⟨_, ⟨result, hresult, results, hresults, heq⟩, hall⟩
        cases heq
        obtain ⟨hfirst, hmore⟩ := List.forall_mem_cons.mp hall
        exact ⟨⟨result, hresult, hfirst⟩, results, hresults, hmore⟩
      · rintro ⟨⟨result, hresult, hfirst⟩, results, hresults, hmore⟩
        exact ⟨_, ⟨result, hresult, results, hresults, rfl⟩,
          List.forall_mem_cons.mpr ⟨hfirst, hmore⟩⟩

theorem exists_mapM_eq_ok_iff {change : α → Except ε β} {items : List α} :
    (∃ results, items.mapM change = .ok results) ↔
      ∀ item ∈ items, ∃ result, change item = .ok result := by
  have hmapM : (∃ results, items.mapM change = .ok results ∧ ∀ result ∈ results,
      True) ↔ _ :=
    exists_mapM_and_iff
  simpa using hmapM

theorem foldlM_eq_error_iff {step : β → α → Except ε β} {state : β}
    {items : List α} {problem : ε} :
    items.foldlM step state = .error problem ↔
      ∃ before item after reached, items = before ++ item :: after ∧
        before.foldlM step state = .ok reached ∧
          step reached item = .error problem := by
  induction items generalizing state with
  | nil => simp [pure, Except.pure]
  | cons item rest ih =>
      rw [List.foldlM_cons, bind_eq_error_iff]
      constructor
      · rintro (hitem | ⟨next, hitem, hrest⟩)
        · exact ⟨[], item, rest, state, rfl, rfl, hitem⟩
        · obtain ⟨before, failing, after, reached, rfl, hbefore, hfailing⟩ :=
            ih.mp hrest
          refine ⟨item :: before, failing, after, reached, rfl, ?_, hfailing⟩
          exact bind_eq_ok_iff.mpr ⟨next, hitem, hbefore⟩
      · rintro ⟨before, failing, after, reached, heq, hbefore, hfailing⟩
        cases before with
        | nil =>
            cases heq
            cases hbefore
            exact .inl hfailing
        | cons first more =>
            cases heq
            obtain ⟨next, hfirst, hbefore⟩ := bind_eq_ok_iff.mp hbefore
            exact .inr ⟨next, hfirst,
              ih.mpr ⟨more, failing, after, reached, rfl, hbefore, hfailing⟩⟩

theorem exists_of_mem_forall₂ {holds : α → β → Prop} {items : List α}
    {results : List β} (hall : List.Forall₂ holds items results) {item : α}
    (hmem : item ∈ items) :
    ∃ result ∈ results, holds item result := by
  induction hall with
  | nil => exact absurd hmem List.not_mem_nil
  | @cons first result rest results hfirst _ ih =>
      rcases List.mem_cons.mp hmem with rfl | hmem
      · exact ⟨result, List.mem_cons_self, hfirst⟩
      · obtain ⟨other, hother, hholds⟩ := ih hmem
        exact ⟨other, List.mem_cons_of_mem _ hother, hholds⟩

theorem exists_forall₂ {holds : α → β → Prop} {items : List α}
    (hitems : ∀ item ∈ items, ∃ result, holds item result) :
    ∃ results, List.Forall₂ holds items results := by
  induction items with
  | nil => exact ⟨[], .nil⟩
  | cons item rest ih =>
      obtain ⟨⟨result, hresult⟩, hrest⟩ := List.forall_mem_cons.mp hitems
      obtain ⟨results, hresults⟩ := ih hrest
      exact ⟨result :: results, .cons hresult hresults⟩

theorem exists_of_mem_mapM {change : α → Except ε β} {items : List α}
    {results : List β} (hall : items.mapM change = .ok results) {result : β}
    (hmem : result ∈ results) :
    ∃ item ∈ items, change item = .ok result :=
  exists_of_mem_forall₂ (mapM_eq_ok_iff.mp hall).flip hmem

end Fragments
