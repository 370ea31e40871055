import Mathlib.Data.List.Perm.Subperm
import Mathlib.Data.String.Basic
import TurnScript.Proofs.Script.Cycles
import TurnScript.Script.Report

/-!
# Reports are exact

What is reported of a script is compared with the graph of its branches: an id leads to another one
if some action that goes by the one names the other. Actions that share an id share a place in the
graph, an id that no action goes by has a place where nothing goes on, and two branches between the
same ids are one way.

The search for cycles from a start visits only greater ids, and only those that lead back. The walks
that it takes are told apart by their lists, and all of them begin with their least id, so every
elementary cycle of the graph is found once.
-/

namespace TurnScript

/-- The id that an action names in a slot, if it names any. -/
def Action.link (action : Action) : Slot → Option String
  | .onSuccess => nonempty action.onSuccess
  | .onFailure => nonempty action.onFailure

/-- An id leads to another one by a branch of some action that goes by it. -/
def Branches (script : List Action) (source target : String) : Prop :=
  ∃ action ∈ script, action.id = source ∧ ∃ slot, action.link slot = some target

namespace Report

/-! ## References -/

theorem count_references (action : Action) (ref : Reference) :
    action.references.count ref =
      if action.id = ref.source ∧ action.link ref.slot = some ref.target then 1 else 0 := by
  obtain ⟨source, slot, target⟩ := ref
  have listed : action.references =
      ((action.link .onSuccess).map (⟨action.id, .onSuccess, ·⟩)).toList ++
        ((action.link .onFailure).map (⟨action.id, .onFailure, ·⟩)).toList := rfl
  rw [listed, List.count_append]
  cases slot <;> cases success : action.link .onSuccess <;> cases failure : action.link .onFailure
    <;> simp [List.count_singleton]

/-- A script has as many copies of a reference as it has actions that make it. -/
theorem count_flatMap_references (script : List Action) (ref : Reference) :
    (script.flatMap (·.references)).count ref =
      script.countP fun action =>
        action.id = ref.source ∧ action.link ref.slot = some ref.target := by
  induction script with
  | nil => rfl
  | cons action rest inductionHypothesis =>
    rw [List.flatMap_cons, List.count_append, inductionHypothesis, count_references,
      List.countP_cons, Nat.add_comm]
    simp only [decide_eq_true_eq]

theorem mem_flatMap_references {script : List Action} {ref : Reference} :
    ref ∈ script.flatMap (·.references) ↔
      ∃ action ∈ script, action.id = ref.source ∧ action.link ref.slot = some ref.target := by
  rw [← List.count_pos_iff, count_flatMap_references, List.countP_pos_iff]
  simp only [decide_eq_true_eq]

/-- An id refers to another one. -/
def Refers (references : List Reference) (source target : String) : Prop :=
  ∃ ref ∈ references, ref.source = source ∧ ref.target = target

theorem refers_iff_branches {script : List Action} {source target : String} :
    Refers (script.flatMap (·.references)) source target ↔ Branches script source target := by
  constructor
  · rintro ⟨ref, member, rfl, rfl⟩
    obtain ⟨action, inScript, same, named⟩ := mem_flatMap_references.mp member
    exact ⟨action, inScript, same, ref.slot, named⟩
  · rintro ⟨action, inScript, same, slot, named⟩
    exact ⟨⟨source, slot, target⟩, mem_flatMap_references.mpr ⟨action, inScript, same, named⟩,
      rfl, rfl⟩

/-- A reference that can be part of a cycle: it leads away from its id. -/
def Leads (references : List Reference) (source target : String) : Prop :=
  source ≠ target ∧ Refers references source target

/-! ## Distinct ids -/

@[simp] theorem mem_distinct {ids : List String} {id : String} : id ∈ distinct ids ↔ id ∈ ids := by
  induction ids with
  | nil => rfl
  | cons first rest inductionHypothesis =>
    by_cases same : id = first <;> simp [distinct, same, inductionHypothesis]

theorem nodup_distinct (ids : List String) : (distinct ids).Nodup := by
  induction ids with
  | nil => exact .nil
  | cons first rest inductionHypothesis =>
    exact List.nodup_cons.mpr ⟨by simp, inductionHypothesis.filter _⟩

theorem mem_successors {references : List Reference} {source target : String} :
    target ∈ successors references source ↔ Leads references source target := by
  simp only [successors, List.mem_mergeSort, mem_distinct, List.mem_map, List.mem_filter,
    Bool.and_eq_true, beq_iff_eq, bne_iff_ne, Leads, Refers]
  constructor
  · rintro ⟨ref, ⟨member, rfl, other⟩, rfl⟩
    exact ⟨Ne.symm other, ref, member, rfl, rfl⟩
  · rintro ⟨other, ref, member, rfl, rfl⟩
    exact ⟨ref, ⟨member, rfl, Ne.symm other⟩, rfl⟩

theorem nodup_successors (references : List Reference) (id : String) :
    (successors references id).Nodup :=
  (List.mergeSort_perm _ _).nodup_iff.mpr (nodup_distinct _)

/-! ## Cycles from a start -/

section From

variable {references : List Reference} {start : String}

/-- The cycles that go on from a path are those that visit only greater ids that are new to it, each
once, and come back to the start in the steps that are left. -/
theorem mem_cyclesFrom {steps : Nat} {last : String} {path cycle : List String} :
    cycle ∈ cyclesFrom references start steps last path ↔
      ∃ ahead, cycle = path.reverse ++ ahead ∧ ahead.length < steps ∧ ahead.Nodup ∧
        (∀ id ∈ ahead, start < id ∧ id ∉ path) ∧
        (last :: ahead ++ [start]).IsChain (Leads references) := by
  induction steps generalizing last path with
  | zero => simp [cyclesFrom]
  | succ steps inductionHypothesis =>
    simp only [cyclesFrom, List.mem_flatMap, mem_successors]
    constructor
    · rintro ⟨next, leads, found⟩
      split at found
      · next back =>
        refine ⟨[], by simpa using found, Nat.succ_pos steps, .nil, by simp, ?_⟩
        simpa [back] using leads
      · split at found
        · next fresh =>
          obtain ⟨ahead, rfl, short, distinct, further, walk⟩ := inductionHypothesis.mp found
          have unseen : next ∉ ahead := fun again =>
            (further next again).2 (List.mem_cons_self ..)
          refine ⟨next :: ahead, by simp, Nat.succ_lt_succ short,
            List.nodup_cons.mpr ⟨unseen, distinct⟩, ?_, .cons_cons leads walk⟩
          intro id member
          rcases List.mem_cons.mp member with rfl | later
          · exact fresh
          · exact ⟨(further id later).1, fun before =>
              (further id later).2 (List.mem_cons_of_mem _ before)⟩
        · cases found
    · rintro ⟨ahead, rfl, short, distinct, further, walk⟩
      cases ahead with
      | nil => exact ⟨start, by simpa using walk, by simp⟩
      | cons next ahead =>
        obtain ⟨leads, walkOn⟩ := List.isChain_cons_cons.mp walk
        obtain ⟨unseen, distinctRest⟩ := List.nodup_cons.mp distinct
        obtain ⟨greater, fresh⟩ := further next (List.mem_cons_self ..)
        refine ⟨next, leads, ?_⟩
        rw [if_neg (ne_of_gt greater), if_pos ⟨greater, fresh⟩]
        refine inductionHypothesis.mpr ⟨ahead, by simp, Nat.lt_of_succ_lt_succ short, distinctRest,
          ?_, walkOn⟩
        intro id member
        refine ⟨(further id (List.mem_cons_of_mem _ member)).1, ?_⟩
        intro seen
        rcases List.mem_cons.mp seen with rfl | before
        · exact unseen member
        · exact (further id (List.mem_cons_of_mem _ member)).2 before

/-- No cycle is found twice, since any two take different ways on somewhere. -/
theorem nodup_cyclesFrom (steps : Nat) (last : String) (path : List String) :
    (cyclesFrom references start steps last path).Nodup := by
  induction steps generalizing last path with
  | zero => exact .nil
  | succ steps inductionHypothesis =>
    have way : ∀ next cycle,
        (cycle ∈ if next = start then [path.reverse]
          else if start < next ∧ next ∉ path then
            cyclesFrom references start steps next (next :: path)
          else []) →
        (cycle.drop path.length).head? = if next = start then none else some next := by
      intro next cycle found
      split at found
      · next back =>
        obtain rfl := List.mem_singleton.mp found
        simp [back]
      · next onward =>
        split at found
        · obtain ⟨ahead, rfl, _⟩ := mem_cyclesFrom.mp found
          simp [onward]
        · cases found
    refine List.nodup_flatMap.mpr ⟨?_, (nodup_successors references last).imp ?_⟩
    · intro next _
      split
      · exact List.nodup_singleton _
      · split
        · exact inductionHypothesis next _
        · exact .nil
    · intro next other distinct cycle found foundOther
      have same := (way next cycle found).symm.trans (way other cycle foundOther)
      by_cases back : next = start <;> by_cases backOther : other = start <;>
        simp_all

/-! ## References that lead back -/

/-- Fewer values pass a test that is harder than another one, if some value tells them apart. -/
theorem countP_lt_countP {α : Type} {easy hard : α → Bool} {values : List α}
    (harder : ∀ value ∈ values, hard value = true → easy value = true)
    (apart : ∃ value ∈ values, easy value = true ∧ hard value = false) :
    values.countP hard < values.countP easy := by
  have within : values.countP hard = (values.filter easy).countP hard := by
    rw [List.countP_filter]
    refine List.countP_congr fun value member => ?_
    simpa using harder value member
  rw [within, List.countP_eq_length_filter (p := easy)]
  obtain ⟨value, member, passes, fails⟩ := apart
  exact List.countP_lt_length_iff.mpr ⟨value, List.mem_filter.mpr ⟨member, passes⟩, fails⟩

/-- With as many steps as there are references of unknown ids, every greater id that refers to the
start or to an id that leads back to it becomes known. -/
theorem mem_leadingTo {steps : Nat} {known : List String} {source target : String}
    (enough : references.countP (fun ref => ref.source ∉ known) ≤ steps)
    (refers : Refers references source target) (greater : start < source)
    (leads : target = start ∨ target ∈ leadingTo references start steps known) :
    source ∈ leadingTo references start steps known := by
  induction steps generalizing known with
  | zero =>
    obtain ⟨ref, member, rfl, _⟩ := refers
    have none := List.countP_eq_zero.mp (Nat.le_zero.mp enough) ref member
    simpa [leadingTo] using none
  | succ steps inductionHypothesis =>
    simp only [leadingTo] at leads ⊢
    split at leads
    · next settled =>
      rw [if_pos settled]
      obtain ⟨ref, member, rfl, rfl⟩ := refers
      have unadded := List.filter_eq_nil_iff.mp (List.isEmpty_iff.mp settled) ref member
      by_contra unknown
      exact unadded (by simpa [greater, unknown] using leads)
    · next added =>
      rw [if_neg added]
      refine inductionHypothesis (Nat.le_of_lt_succ (Nat.lt_of_lt_of_le ?_ enough)) leads
      refine countP_lt_countP (fun ref _ => by simp +contextual) ?_
      obtain ⟨ref, isAdded⟩ := List.exists_mem_of_ne_nil _ (mt List.isEmpty_iff.mpr added)
      have passed := (List.mem_filter.mp isAdded).2
      simp only [Bool.and_eq_true, Bool.not_eq_true', decide_eq_true_eq,
        List.contains_eq_mem, decide_eq_false_iff_not] at passed
      refine ⟨ref, (List.mem_filter.mp isAdded).1, by simpa using passed.1.2, ?_⟩
      have named : ref.source ∈ (references.filter fun ref => start < ref.source &&
          !known.contains ref.source && (ref.target == start || known.contains ref.target)).map
            (·.source) := List.mem_map_of_mem isAdded
      simp only [List.mem_append, mem_distinct, decide_eq_false_iff_not, not_not]
      exact .inr named

/-- The ids that lead back to the start, with the start itself. -/
def ends (references : List Reference) (start : String) : List String :=
  start :: leadingTo references start references.length []

/-- A walk back to the start over greater ids begins with an id that leads back. -/
theorem mem_ends_of_walk {first : String} {ahead : List String}
    (greater : ∀ id ∈ first :: ahead, start < id)
    (walk : (first :: ahead ++ [start]).IsChain (Leads references)) :
    first ∈ ends references start := by
  have enough : references.countP (fun ref => ref.source ∉ []) ≤ references.length :=
    List.countP_le_length
  induction ahead generalizing first with
  | nil =>
    have leads : Leads references first start := by simpa using walk
    exact List.mem_cons_of_mem _
      (mem_leadingTo enough leads.2 (greater first (List.mem_cons_self ..)) (.inl rfl))
  | cons next ahead inductionHypothesis =>
    obtain ⟨leads, walkOn⟩ := List.isChain_cons_cons.mp walk
    have later : ∀ id ∈ next :: ahead, start < id :=
      fun id member => greater id (List.mem_cons_of_mem _ member)
    refine List.mem_cons_of_mem _
      (mem_leadingTo enough leads.2 (greater first (List.mem_cons_self ..)) ?_)
    exact List.mem_cons.mp (inductionHypothesis later walkOn)

/-- All ids of a walk back to the start over greater ids lead back. -/
theorem subset_ends_of_walk {ahead : List String} (greater : ∀ id ∈ ahead, start < id)
    (walk : (ahead ++ [start]).IsChain (Leads references)) :
    ahead ++ [start] ⊆ ends references start := by
  induction ahead with
  | nil => simp [ends]
  | cons next ahead inductionHypothesis =>
    have further := inductionHypothesis
      (fun id member => greater id (List.mem_cons_of_mem _ member)) walk.tail
    exact List.cons_subset.mpr ⟨mem_ends_of_walk greater walk, further⟩

theorem leads_closing {source target : String} :
    Leads (closing references start) source target ↔
      Leads references source target ∧ source ∈ ends references start ∧
        target ∈ ends references start := by
  simp only [Leads, Refers, closing, List.mem_filter, Bool.and_eq_true, List.contains_iff_mem]
  constructor
  · rintro ⟨other, ref, ⟨member, ends⟩, rfl, rfl⟩
    exact ⟨⟨other, ref, member, rfl, rfl⟩, ends⟩
  · rintro ⟨⟨other, ref, member, rfl, rfl⟩, ends⟩
    exact ⟨other, ref, ⟨member, ends⟩, rfl, rfl⟩

/-- A cycle from its least id has only references that lead back. -/
theorem isChain_closing {ahead : List String} (greater : ∀ id ∈ ahead, start < id) :
    (start :: ahead ++ [start]).IsChain (Leads (closing references start)) ↔
      (start :: ahead ++ [start]).IsChain (Leads references) := by
  constructor
  · exact List.IsChain.imp fun _ _ leads => (leads_closing.mp leads).1
  · intro walk
    have within : start :: ahead ++ [start] ⊆ ends references start :=
      List.cons_subset.mpr ⟨List.mem_cons_self .., subset_ends_of_walk greater walk.tail⟩
    exact walk.imp_of_mem_imp fun source target inWalk inWalkToo leads =>
      leads_closing.mpr ⟨leads, within inWalk, within inWalkToo⟩

end From

/-! ## All cycles -/

section All

variable {ids : List String} {references : List Reference}

/-- The ids of a walk are ids of references, the last one aside. -/
theorem subset_of_walk {walk : List String} {last : String}
    (known : ∀ ref ∈ references, ref.source ∈ ids)
    (walks : (walk ++ [last]).IsChain (Leads references)) : walk ⊆ ids := by
  induction walk with
  | nil => exact List.nil_subset ids
  | cons id rest inductionHypothesis =>
    refine List.cons_subset.mpr ⟨?_, inductionHypothesis walks.tail⟩
    cases rest with
    | nil =>
      obtain ⟨_, ref, member, rfl, _⟩ : Leads references id last := by simpa using walks
      exact known ref member
    | cons next rest =>
      obtain ⟨⟨_, ref, member, rfl, _⟩, _⟩ := List.isChain_cons_cons.mp walks
      exact known ref member

/-- The cycles that are listed are the elementary ones, from their least ids. -/
theorem mem_cyclesOf (known : ∀ ref ∈ references, ref.source ∈ ids) {cycle : List String} :
    cycle ∈ cyclesOf ids references ↔
      ∃ start ahead, cycle = start :: ahead ∧ (∀ id ∈ ahead, start < id) ∧
        IsElementary (Leads references) cycle := by
  simp only [cyclesOf, List.mem_flatMap, List.mem_mergeSort, mem_distinct, mem_cyclesFrom]
  constructor
  · rintro ⟨start, _, ahead, rfl, _, distinct, further, walk⟩
    have greater : ∀ id ∈ ahead, start < id := fun id member => (further id member).1
    have walks := (isChain_closing greater).mp walk
    refine ⟨start, ahead, rfl, greater, isElementary_cons.mpr ⟨?_, ?_, walks⟩⟩
    · exact List.nodup_cons.mpr ⟨fun again => lt_irrefl start (greater start again), distinct⟩
    · rintro rfl
      have itself : Leads references start start := by simpa using walks
      exact itself.1 rfl
  · rintro ⟨start, ahead, rfl, greater, elementary⟩
    obtain ⟨distinct, _, walk⟩ := isElementary_cons.mp elementary
    obtain ⟨unseen, distinctAhead⟩ := List.nodup_cons.mp distinct
    have within : start :: ahead ⊆ ids := subset_of_walk known walk
    have short : (start :: ahead).length ≤ ids.length :=
      (distinct.subperm within).length_le
    refine ⟨start, within (List.mem_cons_self ..), ahead, rfl, short, distinctAhead, ?_,
      (isChain_closing greater).mpr walk⟩
    intro id member
    refine ⟨greater id member, ?_⟩
    rintro same
    exact unseen (List.mem_singleton.mp same ▸ member)

theorem nodup_cyclesOf (ids : List String) (references : List Reference) :
    (cyclesOf ids references).Nodup := by
  have starts : ((distinct ids).mergeSort fun a b => decide (a ≤ b)).Nodup :=
    (List.mergeSort_perm _ _).nodup_iff.mpr (nodup_distinct ids)
  refine List.nodup_flatMap.mpr ⟨fun start _ => nodup_cyclesFrom _ _ _, starts.imp ?_⟩
  intro start other distinct cycle found foundOther
  obtain ⟨_, rfl, _⟩ := mem_cyclesFrom.mp found
  obtain ⟨_, same, _⟩ := mem_cyclesFrom.mp foundOther
  exact distinct (List.cons.inj same).1

/-- Every elementary cycle is listed by exactly one of its rotations, and nothing else is. -/
theorem cyclesOf_exact (known : ∀ ref ∈ references, ref.source ∈ ids) :
    ((cyclesOf ids references).map Cycle.ofList).Nodup ∧
      ∀ cycle, cycle ∈ (cyclesOf ids references).map Cycle.ofList ↔
        IsElementary (Refers references) cycle := by
  constructor
  · refine List.Nodup.map_on ?_ (nodup_cyclesOf ids references)
    intro cycle found other foundOther same
    obtain ⟨start, ahead, rfl, greater, _⟩ := (mem_cyclesOf known).mp found
    obtain ⟨startOther, aheadOther, rfl, greaterOther, _⟩ := (mem_cyclesOf known).mp foundOther
    exact eq_of_isRotated greater greaterOther (Cycle.coe_eq_coe.mp same)
  · intro cycle
    rw [List.mem_map]
    constructor
    · rintro ⟨listed, found, rfl⟩
      obtain ⟨_, _, _, _, elementary⟩ := (mem_cyclesOf known).mp found
      exact ⟨elementary.distinct, elementary.long,
        Cycle.Chain.imp (fun _ _ leads => leads.2) elementary.leads⟩
    · intro elementary
      obtain ⟨start, ahead, rfl, greater⟩ := elementary.exists_least
      exact ⟨start :: ahead, (mem_cyclesOf known).mpr
        ⟨start, ahead, rfl, greater, elementary.leads_away⟩, rfl⟩

end All
/-! ## The parts of a report -/

section Parts

variable {script : List Action}

/-- If ids are told apart, none is reported as carried twice. -/
theorem duplicates_of_nodup (distinct : (script.map (·.id)).Nodup) :
    (ofScript script).duplicates = [] := by
  refine List.filter_eq_nil_iff.mpr fun id _ => ?_
  have once := List.nodup_iff_count_le_one.mp distinct id
  simpa using once

/-- If every id that is named is that of an action, no reference is reported as dangling. -/
theorem dangling_of_leads (leads : ∀ action ∈ script, ∀ slot target,
    action.link slot = some target → target ∈ script.map (·.id)) :
    (ofScript script).dangling = [] := by
  refine List.filter_eq_nil_iff.mpr fun ref member => ?_
  obtain ⟨action, inScript, _, named⟩ := mem_flatMap_references.mp member
  simpa using leads action inScript ref.slot ref.target named

/-- The ids that are reported as carried twice, once each. -/
theorem duplicates_exact (script : List Action) :
    (ofScript script).duplicates.Nodup ∧
      ∀ id, id ∈ (ofScript script).duplicates ↔ 2 ≤ (script.map (·.id)).count id := by
  refine ⟨(nodup_distinct _).filter _, fun id => ?_⟩
  simp only [ofScript, List.mem_filter, mem_distinct, decide_eq_true_eq]
  constructor
  · exact fun found => found.2
  · exact fun twice => ⟨List.count_pos_iff.mp (by omega), twice⟩

/-- A reference is reported as dangling as often as it is made, if no action goes by its target. -/
theorem count_dangling (script : List Action) (ref : Reference) :
    (ofScript script).dangling.count ref =
      if ref.target ∈ script.map (·.id) then 0
      else script.countP fun action =>
        action.id = ref.source ∧ action.link ref.slot = some ref.target := by
  rw [← count_flatMap_references]
  split
  · next leads =>
    refine List.count_eq_zero.mpr fun found => ?_
    simpa [leads] using (List.mem_filter.mp found).2
  · next lost => exact List.count_filter (by simpa using lost)

/-- The ids that are reported as leading to themselves, once each. -/
theorem selfBranches_exact (script : List Action) :
    (ofScript script).selfBranches.Nodup ∧
      ∀ id, id ∈ (ofScript script).selfBranches ↔ Branches script id id := by
  refine ⟨nodup_distinct _, fun id => ?_⟩
  rw [← refers_iff_branches]
  simp only [ofScript, mem_distinct, List.mem_map, List.mem_filter, beq_iff_eq, Refers]
  constructor
  · rintro ⟨ref, ⟨member, same⟩, rfl⟩
    exact ⟨ref, member, rfl, same⟩
  · rintro ⟨ref, member, rfl, same⟩
    exact ⟨ref, ⟨member, same⟩, rfl⟩

/-- The cycles that are reported, each by one of its rotations. -/
theorem cycles_exact (script : List Action) :
    ((ofScript script).cycles.map Cycle.ofList).Nodup ∧
      ∀ cycle, cycle ∈ (ofScript script).cycles.map Cycle.ofList ↔
        IsElementary (Branches script) cycle := by
  have known : ∀ ref ∈ script.flatMap (·.references), ref.source ∈ script.map (·.id) := by
    intro ref member
    obtain ⟨action, inScript, same, _⟩ := mem_flatMap_references.mp member
    exact same ▸ List.mem_map_of_mem inScript
  have same : Refers (script.flatMap (·.references)) = Branches script := by
    funext source target
    exact propext refers_iff_branches
  exact same ▸ cyclesOf_exact known

/-- Nothing is wrong with a script if its ids are told apart, each id that is named is that of
another action, and no branches lead back to where they began. -/
theorem ok_iff : (ofScript script).ok = true ↔
    (script.map (·.id)).Nodup ∧
    (∀ action ∈ script, ∀ slot target, action.link slot = some target →
      ∃ other ∈ script, other.id = target ∧ other.id ≠ action.id) ∧
    ∀ id, ¬Relation.TransGen (Branches script) id id := by
  obtain ⟨_, twice⟩ := duplicates_exact script
  obtain ⟨_, itself⟩ := selfBranches_exact script
  obtain ⟨_, elementary⟩ := cycles_exact script
  simp only [ok, Bool.and_eq_true, List.isEmpty_iff]
  constructor
  · rintro ⟨⟨⟨noDuplicates, noneDangling⟩, noneItself⟩, noCycles⟩
    rw [noDuplicates] at twice
    rw [noneItself] at itself
    rw [noCycles] at elementary
    refine ⟨List.nodup_iff_count_le_one.mpr fun id => ?_, ?_, ?_⟩
    · have single := mt (twice id).mpr List.not_mem_nil
      omega
    · intro action member slot target named
      have made : (⟨action.id, slot, target⟩ : Reference) ∈ script.flatMap (·.references) :=
        mem_flatMap_references.mpr ⟨action, member, rfl, named⟩
      have leads : target ∈ script.map (·.id) := by
        simpa using List.filter_eq_nil_iff.mp noneDangling _ made
      obtain ⟨other, inScript, same⟩ := List.mem_map.mp leads
      refine ⟨other, inScript, same, fun again => ?_⟩
      exact List.not_mem_nil ((itself action.id).mpr
        ⟨action, member, rfl, slot, by rw [named, ← same, again]⟩)
    · intro id returns
      obtain ⟨cycle, found⟩ := exists_isElementary
        (fun id leads => List.not_mem_nil ((itself id).mpr leads)) returns
      exact List.not_mem_nil ((elementary cycle).mpr found)
  · rintro ⟨distinct, leads, acyclic⟩
    refine ⟨⟨⟨?_, ?_⟩, ?_⟩, ?_⟩
    · exact duplicates_of_nodup distinct
    · refine dangling_of_leads fun action inScript slot target named => ?_
      obtain ⟨other, there, same, _⟩ := leads action inScript slot target named
      exact same ▸ List.mem_map_of_mem there
    · refine List.eq_nil_iff_forall_not_mem.mpr fun id found => ?_
      exact acyclic id (.single ((itself id).mp found))
    · refine List.eq_nil_iff_forall_not_mem.mpr fun cycle found => ?_
      obtain ⟨id, returns⟩ :=
        ((elementary cycle).mp (List.mem_map_of_mem found)).exists_transGen
      exact acyclic id returns

end Parts

/-- A report on a script is exact. An id is reported as carried twice if two actions or more go by
it; a reference is reported as dangling, as often as it is made, if no action goes by its target; an
id is reported as leading to itself if some action that goes by it names it. Each elementary cycle
of the branches is reported by exactly one of its rotations, and no other list is. So nothing is
wrong exactly if the ids are told apart, each reference leads to another action, and no branches
lead back to where they began. -/
theorem reports_are_exact (script : List Action) :
    let report := ofScript script
    (report.duplicates.Nodup ∧
      ∀ id, id ∈ report.duplicates ↔ 2 ≤ (script.map (·.id)).count id) ∧
    (∀ ref, report.dangling.count ref =
      if ref.target ∈ script.map (·.id) then 0
      else script.countP fun action =>
        action.id = ref.source ∧ action.link ref.slot = some ref.target) ∧
    (report.selfBranches.Nodup ∧ ∀ id, id ∈ report.selfBranches ↔ Branches script id id) ∧
    ((report.cycles.map Cycle.ofList).Nodup ∧
      ∀ cycle, cycle ∈ report.cycles.map Cycle.ofList ↔ IsElementary (Branches script) cycle) ∧
    (report.ok = true ↔
      (script.map (·.id)).Nodup ∧
      (∀ action ∈ script, ∀ slot target, action.link slot = some target →
        ∃ other ∈ script, other.id = target ∧ other.id ≠ action.id) ∧
      ∀ id, ¬Relation.TransGen (Branches script) id id) :=
  ⟨duplicates_exact script, count_dangling script, selfBranches_exact script, cycles_exact script,
    ok_iff⟩

end Report
end TurnScript
