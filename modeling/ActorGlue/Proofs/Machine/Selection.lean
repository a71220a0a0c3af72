import ActorGlue.Proofs.Expansion.Files
import ActorGlue.Proofs.Machine.Atomicity

/-!
# Which entry point a method number selects

An actor, its dispatch table and the reports about shared method numbers agree: a number selects the
first entry point that is bound to it. The others with this number are out of reach, and the number
is reported once for all of them. A number that selects nothing is an abort of its own kind.
-/

namespace ActorGlue

open Glue

/-- The position of the case that a method number selects. -/
def Glue.DispatchTable.place? (table : DispatchTable) (number : Int) : Option Nat :=
  table.cases.findIdx? fun case => (case.entry.binding.value : Int) = number

theorem Glue.DispatchTable.case?_eq_bind (table : DispatchTable) (number : Int) :
    table.case? number = (table.place? number).bind (table.cases[·]?) :=
  List.find?_eq_bind_findIdx?_getElem?

theorem Glue.place?_lowerActor (actor : Actor) (symbol : String) (number : Int) :
    (lowerActor actor symbol).place? number =
      actor.entryPoints.findIdx? fun entry => (entry.binding.value : Int) = number := by
  rw [DispatchTable.place?, lowerActor, List.findIdx?_map]
  rfl

namespace Actor

variable {actor : Actor} {number : Int} {entry : EntryPoint} {binding : MethodNumber}

/-- The entry point is bound to the number, and none before it is. -/
def FirstBound (actor : Actor) (number : Int) (entry : EntryPoint) : Prop :=
  ∃ before after, actor.entryPoints = before ++ entry :: after ∧
    (entry.binding.value : Int) = number ∧
    ∀ other ∈ before, (other.binding.value : Int) ≠ number

theorem entryPoint?_eq_some_iff :
    actor.entryPoint? number = some entry ↔ actor.FirstBound number entry := by
  rw [entryPoint?, List.find?_eq_some_iff_append]
  constructor
  · rintro ⟨bound, before, after, same, free⟩
    exact ⟨before, after, same, by simpa using bound, by simpa using free⟩
  · rintro ⟨before, after, same, bound, free⟩
    exact ⟨by simpa using bound, before, after, same, by simpa using free⟩

theorem case?_eq_some_iff (symbol : String) :
    (∃ block, (lowerActor actor symbol).case? number = some ⟨entry, block⟩) ↔
      actor.FirstBound number entry := by
  rw [← entryPoint?_eq_some_iff, case?_lowerActor]
  constructor
  · rintro ⟨block, found⟩
    obtain ⟨found, given, same⟩ := Option.map_eq_some_iff.mp found
    cases same
    exact given
  · intro found
    rw [found]
    exact ⟨_, rfl⟩

theorem place?_eq_length_iff (symbol : String) {before after : List EntryPoint}
    (placed : actor.entryPoints = before ++ entry :: after) :
    (lowerActor actor symbol).place? number = some before.length ↔
      (entry.binding.value : Int) = number ∧
        ∀ other ∈ before, (other.binding.value : Int) ≠ number := by
  rw [place?_lowerActor, placed, List.findIdx?_append, List.findIdx?_cons]
  cases found : before.findIdx? fun other => (other.binding.value : Int) = number with
  | some place =>
    obtain ⟨inside, bound, -⟩ := List.findIdx?_eq_some_iff_getElem.mp found
    have taken : ¬∀ other ∈ before, (other.binding.value : Int) ≠ number := by
      intro free
      exact free _ (List.getElem_mem inside) (by simpa using bound)
    simp [taken, inside.ne]
  | none =>
    have free := List.findIdx?_eq_none_iff.mp found
    by_cases bound : (entry.binding.value : Int) = number
    · simpa [bound] using free
    · simp [bound]
      omega

theorem binding_inj {first second : MethodNumber} (same : (first.value : Int) = second.value) :
    first = second := by
  cases first
  cases second
  simp_all

/-- No number selects an entry point exactly if another one with its number stands before it. -/
theorem unreachable_iff (symbol : String) {before after : List EntryPoint}
    (placed : actor.entryPoints = before ++ entry :: after) :
    (∀ number, (lowerActor actor symbol).place? number ≠ some before.length) ↔
      ∃ other ∈ before, other.binding = entry.binding := by
  constructor
  · intro missed
    by_contra alone
    refine missed entry.binding.value ((place?_eq_length_iff symbol placed).mpr ⟨rfl, ?_⟩)
    intro other inside same
    exact alone ⟨other, inside, binding_inj same⟩
  · rintro ⟨other, inside, same⟩ number selected
    obtain ⟨bound, free⟩ := (place?_eq_length_iff symbol placed).mp selected
    exact free other inside (same ▸ bound)

/-! ## Shared method numbers -/

/-- The numbers in use, in the order of their first use. -/
def bindings (actor : Actor) : List MethodNumber :=
  actor.entryPoints.foldl
    (fun seen entry => if seen.contains entry.binding then seen else seen ++ [entry.binding]) []

/-- The methods bound to a number, in order. -/
def methodsOf (actor : Actor) (binding : MethodNumber) : List String :=
  (actor.entryPoints.filter (·.binding = binding)).map (·.method)

theorem bindings_snoc (name : String) (dispatch : Dispatch) (entries : List EntryPoint)
    (entry : EntryPoint) :
    bindings ⟨name, dispatch, entries ++ [entry]⟩ =
      if entry.binding ∈ bindings ⟨name, dispatch, entries⟩ then bindings ⟨name, dispatch, entries⟩
      else bindings ⟨name, dispatch, entries⟩ ++ [entry.binding] := by
  simp [bindings, List.foldl_append]

theorem mem_bindings : binding ∈ actor.bindings ↔ binding ∈ actor.entryPoints.map (·.binding) := by
  obtain ⟨name, dispatch, entries⟩ := actor
  induction entries using List.reverseRecOn with
  | nil => rfl
  | append_singleton entries entry ih =>
    rw [bindings_snoc, List.map_append, List.mem_append, ← ih]
    split
    · grind
    · simp

/-- The first use of one number is before that of another one. -/
def UsedBefore (actor : Actor) (first second : MethodNumber) : Prop :=
  (actor.entryPoints.map (·.binding)).idxOf first < (actor.entryPoints.map (·.binding)).idxOf second

theorem bindings_ordered (actor : Actor) : actor.bindings.Pairwise actor.UsedBefore := by
  obtain ⟨name, dispatch, entries⟩ := actor
  induction entries using List.reverseRecOn with
  | nil => exact List.Pairwise.nil
  | append_singleton entries entry ih =>
    have known : ∀ {binding}, binding ∈ bindings ⟨name, dispatch, entries⟩ →
        ((entries ++ [entry]).map (·.binding)).idxOf binding =
          (entries.map (·.binding)).idxOf binding := by
      intro binding used
      rw [List.map_append]
      exact List.idxOf_append_of_mem (mem_bindings.mp used)
    have kept : (bindings ⟨name, dispatch, entries⟩).Pairwise
        (UsedBefore ⟨name, dispatch, entries ++ [entry]⟩) := by
      refine ih.imp_of_mem fun first second before => ?_
      rwa [UsedBefore, known first, known second]
    rw [bindings_snoc]
    split
    · exact kept
    · rename_i fresh
      refine List.pairwise_append.mpr ⟨kept, List.pairwise_singleton _ _, ?_⟩
      rintro binding used _ last
      obtain rfl := List.mem_singleton.mp last
      rw [UsedBefore, known used, List.map_append,
        List.idxOf_append_of_notMem (mem_bindings.not.mp fresh)]
      exact (List.idxOf_lt_length_of_mem (mem_bindings.mp used)).trans_le (Nat.le_add_right _ _)

/-- The collisions are the numbers that several entry points share: each of them once, in the order
of first use, with the methods of these entry points in their order. -/
structure Shares (actor : Actor) (collisions : List Collision) : Prop where
  shared : ∀ binding, binding ∈ collisions.map (·.binding) ↔
    2 ≤ actor.entryPoints.countP (·.binding = binding)
  ordered : (collisions.map (·.binding)).Pairwise actor.UsedBefore
  methods : ∀ collision ∈ collisions, collision.methods =
    (actor.entryPoints.filter (·.binding = collision.binding)).map (·.method)

/-- To put a method under its number changes nothing under the others. -/
theorem group_map (entry : EntryPoint) {numbers : List MethodNumber}
    {before after : MethodNumber → List String} (distinct : numbers.Nodup)
    (here : after entry.binding = before entry.binding ++ [entry.method])
    (others : ∀ binding, binding ≠ entry.binding → after binding = before binding)
    (unused : entry.binding ∉ numbers → before entry.binding = []) :
    entry.group (numbers.map fun binding => ⟨binding, before binding⟩) =
      (if entry.binding ∈ numbers then numbers else numbers ++ [entry.binding]).map
        fun binding => ⟨binding, after binding⟩ := by
  induction numbers with
  | nil => simp [EntryPoint.group, here, unused]
  | cons number rest ih =>
    obtain ⟨fresh, distinct⟩ := List.nodup_cons.mp distinct
    rw [List.map_cons, EntryPoint.group]
    split_ifs with same used used
    · have kept : ∀ binding ∈ rest, (⟨binding, before binding⟩ : Collision) =
          ⟨binding, after binding⟩ := by
        intro binding inside
        rw [others binding fun equal => fresh (same ▸ equal ▸ inside)]
      subst same
      rw [List.map_cons, here, List.map_congr_left kept]
    · exact absurd (same ▸ List.mem_cons_self) used
    · have inside := (List.mem_cons.mp used).resolve_left (Ne.symm same)
      rw [ih distinct fun absent => absurd inside absent, if_pos inside, List.map_cons,
        others number same]
    · have outside := (List.mem_cons.not.mp used) ∘ .inr
      rw [ih distinct fun _ => unused used, if_neg outside, List.cons_append, List.map_cons,
        others number same]

theorem nodup_bindings (actor : Actor) : actor.bindings.Nodup :=
  actor.bindings_ordered.imp fun before same => (same ▸ before).false

/-- One pass over the entry points groups the methods by their numbers. -/
theorem collisions_eq (actor : Actor) : actor.collisions =
    (actor.bindings.map fun binding => ⟨binding, actor.methodsOf binding⟩).filter
      (1 < ·.methods.length) := by
  rw [collisions]
  congr 1
  obtain ⟨name, dispatch, entries⟩ := actor
  induction entries using List.reverseRecOn with
  | nil => rfl
  | append_singleton entries entry ih =>
    rw [List.foldl_append, List.foldl_cons, List.foldl_nil, ih, bindings_snoc]
    apply group_map entry (nodup_bindings _)
    · simp [methodsOf]
    · intro binding differs
      simp [methodsOf, Ne.symm differs]
    · intro unused
      rw [mem_bindings, List.mem_map] at unused
      rw [methodsOf, List.map_eq_nil_iff, List.filter_eq_nil_iff]
      intro other inside
      simpa using fun same => unused ⟨other, inside, same⟩

theorem length_methodsOf (actor : Actor) (binding : MethodNumber) :
    (actor.methodsOf binding).length = actor.entryPoints.countP (·.binding = binding) := by
  rw [methodsOf, List.length_map, List.countP_eq_length_filter]

/-- The numbers of the collisions are the shared ones among those in use. -/
theorem bindings_collisions (actor : Actor) :
    actor.collisions.map (·.binding) =
      actor.bindings.filter fun binding => 1 < (actor.methodsOf binding).length := by
  rw [collisions_eq, List.filter_map, List.map_map]
  exact List.map_id _

theorem shares_collisions (actor : Actor) : actor.Shares actor.collisions where
  shared binding := by
    rw [bindings_collisions, List.mem_filter, mem_bindings, length_methodsOf]
    simp only [decide_eq_true_eq]
    constructor
    · exact fun h => h.2
    · intro several
      have some : 0 < actor.entryPoints.countP (·.binding = binding) := by omega
      obtain ⟨entry, inside, bound⟩ := List.countP_pos_iff.mp some
      exact ⟨List.mem_map.mpr ⟨entry, inside, by simpa using bound⟩, several⟩
  ordered := by
    rw [bindings_collisions]
    exact actor.bindings_ordered.filter _
  methods collision member := by
    rw [collisions_eq] at member
    obtain ⟨binding, -, rfl⟩ := List.mem_map.mp (List.mem_of_mem_filter member)
    rfl

/-! ## Warnings -/

/-- The first method of a number is the one that the number selects. -/
theorem head?_methodsOf (actor : Actor) (binding : MethodNumber) :
    (actor.methodsOf binding).head? = (actor.boundTo? binding).map (·.method) := by
  have same : ∀ entry : EntryPoint, decide (entry.binding = binding) =
      decide ((entry.binding.value : Int) = binding.value) := by
    intro entry
    refine decide_eq_decide.mpr ⟨fun bound => bound ▸ rfl, binding_inj⟩
  rw [methodsOf, List.head?_map, List.head?_filter, boundTo?, entryPoint?, funext same]

end Actor

/-- The warning names the number of a collision, the methods that share it, and the one of the case
that the number selects. -/
def Glue.DispatchTable.Announces (table : DispatchTable) (collision : Collision)
    (warning : Diagnostic) : Prop :=
  ∃ case, table.case? collision.binding.value = some case ∧
    warning = .warning ("binding " ++ toString collision.binding.value ++ " is shared by " ++
      ", ".intercalate collision.methods ++ "; '" ++ case.entry.method ++ "' is dispatched")

theorem Actor.announces_warning {actor : Actor} {collision : Collision} (symbol : String)
    (member : collision ∈ actor.collisions) :
    (lowerActor actor symbol).Announces collision collision.warning := by
  rw [collisions_eq] at member
  obtain ⟨listed, several⟩ := List.mem_filter.mp member
  obtain ⟨binding, -, rfl⟩ := List.mem_map.mp listed
  have first := actor.head?_methodsOf binding
  cases found : actor.boundTo? binding with
  | none =>
    rw [found, Option.map_none, List.head?_eq_none_iff] at first
    simp [first] at several
  | some entry =>
    refine ⟨⟨entry, lowerEntry entry actor.name⟩, ?_, ?_⟩
    · rw [boundTo?] at found
      rw [case?_lowerActor, found, Option.map_some]
    · rw [found, Option.map_some] at first
      rw [Collision.warning, List.headD_eq_head?_getD, first, Option.getD_some]

/-- An item that is expanded as an actor declares one, and there is one warning for each number that
its entry points share. -/
theorem warnings_of_expandItem {naming : Naming} {program : Program} {marks text : List Char}
    {expansion : Expansion}
    (expanded : (expandItem naming program .actor marks text).result = .ok expansion) :
    ∃ actor, expansion.program.actor = some actor ∧
      expansion.module.table = some (lowerActor actor naming.symbol) ∧
      expansion.warnings = actor.collisions.map (·.warning) := by
  obtain ⟨_, item, declaration, -, declares, expands⟩ := expandItem_eq_ok expanded
  have isActor : ∃ actor, declaration = .actor actor := by
    cases item with
    | impl found =>
      obtain ⟨actor, -, same⟩ := map_eq_ok.mp (Option.some.inj declares)
      exact ⟨actor, same.symm⟩
    | _ => cases declares
  obtain ⟨actor, rfl⟩ := isActor
  refine ⟨actor, ?_⟩
  unfold Declaration.expand Program.add at expands
  cases held : program.actor with
  | some first =>
    rw [held] at expands
    cases expands
  | none =>
    rw [held] at expands
    cases expands
    exact ⟨rfl, rfl, rfl⟩

/-! ## Method numbers that select nothing -/

namespace Machine

variable {machine : Machine} {program : Program} {symbol : String} {table : DispatchTable}
variable {method : Value} {params : Int} {sandbox : Sandbox}

/-- An invocation aborts with an exit code, and its method does not. -/
def AbortsWith (machine : Machine) (table : DispatchTable) (method : Value) (params : Int)
    (sandbox : Sandbox) (exitCode : Int) : Prop :=
  ∃ message, (machine.dispatch table method params sandbox).1 = .error (.abort exitCode message) ∧
    ∀ case receiver, table.selected? method = some case →
      ¬machine.Calls case.entry params sandbox receiver (.error (.abort exitCode message))

theorem abortsWith_unhandled_iff (tabled : (lower program symbol).table = some table)
    (runs : machine.RunsOver (lower program symbol)) :
    machine.AbortsWith table method params sandbox unhandledMessage ↔
      table.selected? method = none := by
  constructor
  · rintro ⟨message, aborts, foreign⟩
    by_contra some
    obtain ⟨case, selected⟩ := Option.ne_none_iff_exists'.mp some
    cases evaluated : machine.evaluate case.entry params sandbox with
    | ok outcome =>
      obtain ⟨lines, ran⟩ := dispatch_of_outcome tabled runs selected evaluated
      rw [ran] at aborts
      cases aborts
    | error breakdown =>
      obtain ⟨lines, ran, -⟩ := dispatch_of_breakdown tabled runs selected evaluated
      rw [ran] at aborts
      have stops : breakdown.stop = .abort unhandledMessage message := Except.error.inj aborts
      obtain byStep | ⟨stop, receiver, rfl, calls⟩ := machine.evaluate_eq_error case.entry evaluated
      · cases breakdown with
        | aborted exitCode text => exact byStep (Stop.abort.inj stops).1
        | raised stop => exact byStep _ _ stops
      · exact foreign case receiver selected (stops ▸ calls)
  · intro unselected
    refine ⟨some "unrecognized method", ?_, ?_⟩
    · rw [dispatch_unselected unselected]
    · intro case receiver selected
      rw [unselected] at selected
      cases selected

end Machine

/-- An actor and its table agree on what each method number selects, and on the entry points that no
number selects. -/
structure Actor.SelectsFirst (actor : Actor) (table : DispatchTable) : Prop where
  declared : ∀ number entry, actor.entryPoint? number = some entry ↔ actor.FirstBound number entry
  lowered : ∀ number entry, (∃ block, table.case? number = some ⟨entry, block⟩) ↔
    actor.FirstBound number entry
  placed : ∀ number, table.case? number = (table.place? number).bind (table.cases[·]?)
  unreachable : ∀ before entry after, actor.entryPoints = before ++ entry :: after →
    ((∀ number, table.place? number ≠ some before.length) ↔
      ∃ other ∈ before, other.binding = entry.binding)

theorem Actor.selectsFirst_lowerActor (actor : Actor) (symbol : String) :
    actor.SelectsFirst (lowerActor actor symbol) where
  declared _ _ := entryPoint?_eq_some_iff
  lowered _ _ := case?_eq_some_iff symbol
  placed := (lowerActor actor symbol).case?_eq_bind
  unreachable _ _ _ := unreachable_iff symbol

/-- Each method number selects the first entry point that is bound to it, in the actor as in its
table, and an invocation aborts for want of a case exactly if there is no such entry point. The
numbers that several entry points share are listed once each. The expansion of the actor warns of
each of them, and names the method that the table selects. -/
theorem first_bound_selected :
    (∀ (actor : Actor) (symbol : String),
      actor.SelectsFirst (lowerActor actor symbol) ∧ actor.Shares actor.collisions) ∧
    (∀ (program : Program) (symbol : String) (actor : Actor) (machine : Machine) (method : Value)
        (params : Int) (sandbox : Sandbox), program.actor = some actor →
      machine.RunsOver (lower program symbol) →
      (machine.AbortsWith (lowerActor actor symbol) method params sandbox unhandledMessage ↔
        method.toInt?.bind (lowerActor actor symbol).case? = none ∧
          method.toInt?.bind actor.entryPoint? = none)) ∧
    ∀ (naming : Naming) (program : Program) (marks text : List Char) (expansion : Expansion),
      (expandItem naming program .actor marks text).result = .ok expansion →
      ∃ actor, expansion.program.actor = some actor ∧
        expansion.module.table = some (lowerActor actor naming.symbol) ∧
        List.Forall₂ (lowerActor actor naming.symbol).Announces actor.collisions
          expansion.warnings := by
  refine ⟨?_, ?_, ?_⟩
  · intro actor symbol
    exact ⟨actor.selectsFirst_lowerActor symbol, actor.shares_collisions⟩
  · intro program symbol actor machine method params sandbox held runs
    have tabled : (lower program symbol).table = some (lowerActor actor symbol) := by
      rw [lower, held, Option.map_some]
    have missing : (lowerActor actor symbol).selected? method = none ↔
        method.toInt?.bind actor.entryPoint? = none := by
      rw [Machine.selected_eq tabled, Option.map_eq_none_iff]
      rfl
    rw [Machine.abortsWith_unhandled_iff tabled runs]
    exact ⟨fun unselected => ⟨unselected, missing.mp unselected⟩, fun neither => neither.1⟩
  · intro naming program marks text expansion expanded
    obtain ⟨actor, held, tabled, warned⟩ := warnings_of_expandItem expanded
    refine ⟨actor, held, tabled, ?_⟩
    rw [warned, List.forall₂_map_right_iff, List.forall₂_same]
    exact fun collision => actor.announces_warning naming.symbol

/-- An actor with two methods of one number. -/
def sharingText : String :=
  "impl S \x7b #[fvm_export(binding = 1)] pub fn a() \x7b\x7d " ++
    "#[fvm_export(binding = 1)] pub fn b() \x7b\x7d \x7d"

/-- What is declared by two methods of one number. -/
def sharingActor : Actor :=
  ⟨"S", .methodNumber, [⟨"a", ⟨1, by decide⟩, .pure, false, []⟩,
    ⟨"b", ⟨1, by decide⟩, .pure, false, []⟩]⟩

theorem first_bound_selected_sharing : ∃ expansion warning,
    (expandItem {} {} .actor [] sharingText.toList).result = .ok expansion ∧
      expansion.program.actor = some sharingActor ∧ expansion.warnings = [warning] ∧
      (lowerActor sharingActor invokeSymbol).Announces ⟨⟨1, by decide⟩, ["a", "b"]⟩ warning ∧
      (∀ number, (lowerActor sharingActor invokeSymbol).place? number ≠ some 1) ∧
      Machine.AbortsWith ⟨none, none, []⟩ (lowerActor sharingActor invokeSymbol) (.int 2) 0 {}
        unhandledMessage := by
  have declares : (expandItem {} {} .actor [] sharingText.toList).result.toOption.bind
      (·.program.actor) = some sharingActor := by decide +kernel
  have listed : sharingActor.collisions = [⟨⟨1, by decide⟩, ["a", "b"]⟩] := by decide
  obtain ⟨agree, aborts, warns⟩ := first_bound_selected
  cases result : (expandItem {} {} .actor [] sharingText.toList).result with
  | error failure =>
    rw [result] at declares
    cases declares
  | ok expansion =>
    rw [result] at declares
    obtain ⟨actor, held, -, announced⟩ := warns {} {} [] _ expansion result
    have same : actor = sharingActor := Option.some.inj (held.symm.trans declares)
    rw [same, listed, List.forall₂_cons_left_iff] at announced
    obtain ⟨warning, rest, announces, nothing, warnings⟩ := announced
    cases nothing
    refine ⟨expansion, warning, rfl, declares, warnings, announces, ?_, ?_⟩
    · exact ((agree sharingActor invokeSymbol).1.unreachable [_] _ [] rfl).mpr
        ⟨_, List.mem_singleton_self _, rfl⟩
    · refine (aborts { actor := some sharingActor } invokeSymbol sharingActor _ (.int 2) 0 {} rfl
        ?_).mpr ⟨rfl, rfl⟩
      intro interface found
      cases found

end ActorGlue
