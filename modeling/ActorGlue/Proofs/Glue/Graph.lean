import ActorGlue.Glue.Graph
import ActorGlue.Glue.Lower
import Mathlib

/-!
# Glue graphs are closed and unambiguous

The name of a node ends with what stands behind its last bar: the result of an instruction or an
exit code. So the label of a block and the result of an instruction are read off the name of a
node, whatever the structures of a program are called, and the edges that leave a node are those
of one instruction or those of the dispatch.
-/

namespace ActorGlue.Graph

open Glue

variable {label other : String} {i : Instruction} {before after : List Instruction} {code : Int}

/-- The nodes that are declared, on their own or in a cluster. -/
def nodes (elements : List Element) : List Node :=
  elements.flatMap fun
    | .node node => [node]
    | .edge _ => []
    | .cluster cluster => cluster.nodes

/-- The edges that are declared. -/
def edges (elements : List Element) : List Edge :=
  elements.flatMap fun
    | .node _ => []
    | .edge edge => [edge]
    | .cluster _ => []

def names (module : Module) : List String :=
  (nodes (ofModule module)).map (·.name)

/-- A block with its title and the label of its nodes. -/
structure Body where
  label : String
  title : String
  block : Block

def Body.names (body : Body) : List String :=
  body.block.instructions.map (nodeName body.label)

/-- The blocks of a state with their labels. -/
def stateBodies (interface : StateInterface) : List Body :=
  [⟨interface.state.name ++ "_load", interface.load.name, interface.load⟩,
    ⟨interface.state.name ++ "_save", interface.save.name, interface.save⟩]

/-- The blocks of a dispatch table with their labels. -/
def caseBodies (table : DispatchTable) : List Body :=
  table.cases.zipIdx.map fun (case, index) => ⟨"case" ++ toString index,
    toString case.entry.binding.value ++ " => " ++ case.entry.method, case.block⟩

/-- The blocks that are drawn: load and save of each state, then each case. -/
def bodies (module : Module) : List Body :=
  module.interfaces.flatMap stateBodies ++ (module.table.map caseBodies).getD []

/-- The edges that an instruction is to have: one for each of its aborts, and a plain one to the
next instruction. -/
def outgoing (label : String) (i : Instruction) (next : Option Instruction) : List Edge :=
  (i.aborts.map fun (kind, abort) => abortEdge (nodeName label i) kind abort) ++
    (next.map fun next => ⟨nodeName label i, nodeName label next, []⟩).toList

/-- Some instruction aborts with the exit code, or the dispatch does, if there is one. -/
def Used (module : Module) (code : Int) : Prop :=
  (∃ body ∈ bodies module, ∃ i ∈ body.block.instructions, ∃ abort ∈ i.aborts,
    abort.2.exitCode = code) ∨ module.table.isSome ∧ code = unhandledMessage

section Names

/-- A text is taken apart at its last bar in one way. -/
theorem append_bar_inj {first second behind behind' : String} (plain : '_' ∉ behind.toList)
    (plain' : '_' ∉ behind'.toList) (same : first ++ "_" ++ behind = second ++ "_" ++ behind') :
    first = second ∧ behind = behind' := by
  have chars : first.toList ++ '_' :: behind.toList = second.toList ++ '_' :: behind'.toList := by
    simpa using congrArg String.toList same
  suffices split : first.toList = second.toList ∧ behind.toList = behind'.toList by
    simpa only [String.toList_inj] using split
  rcases List.append_eq_append_iff.mp chars with ⟨rest, front, back⟩ | ⟨rest, front, back⟩ <;>
    cases rest <;> simp_all

theorem resultName_injective : Function.Injective resultName := by
  intro index index' same
  exact Nat.repr_inj.mp ((String.append_right_inj _).mp same)

/-- The results of the instructions are numbered, each with another number. -/
def Numbered (instructions : List Instruction) : Prop :=
  (instructions.map (·.id)).Nodup ∧ ∀ i ∈ instructions, ∃ index, i.id = resultName index

theorem numbered_ofSteps (name : String) (steps : List Step) :
    Numbered (Block.ofSteps name steps).instructions := by
  constructor
  · have ids : (Block.ofSteps name steps).instructions.map (·.id) =
        (List.range' 0 steps.length).map resultName := by
      simp [Block.ofSteps, ← List.zipIdx_map_snd, Function.comp_def]
    rw [ids]
    exact (List.nodup_range' _).map resultName_injective
  · intro i member
    obtain ⟨⟨step, index⟩, -, rfl⟩ := List.mem_map.mp member
    exact ⟨index, rfl⟩

theorem nodeName_inj {j : Instruction} (id : ∃ index, i.id = resultName index)
    (id' : ∃ index, j.id = resultName index) (same : nodeName label i = nodeName other j) :
    label = other ∧ i.id = j.id := by
  obtain ⟨index, id⟩ := id
  obtain ⟨index', id'⟩ := id'
  exact append_bar_inj (by simp [id, resultName]) (by simp [id', resultName]) same

theorem nodeName_ne_dispatch : nodeName label i ≠ "dispatch" := by
  intro same
  have bar : '_' ∈ (nodeName label i).toList := by simp [nodeName]
  rw [same] at bar
  exact absurd bar (by decide)

theorem nodeName_ne_abortName (id : ∃ index, i.id = resultName index)
    (named : code ∈ [illegalState, serializationFailure, unhandledMessage]) :
    nodeName label i ≠ abortName code := by
  intro same
  obtain ⟨index, id⟩ := id
  have digits : ∀ code ∈ [illegalState, serializationFailure, unhandledMessage],
      '_' ∉ (toString code).toList ∧ 'g' ∉ (toString code).toList := by
    decide
  obtain ⟨bar, letter⟩ := digits code named
  have split : abortName code = "abort" ++ "_" ++ toString code := rfl
  rw [split] at same
  rw [← (append_bar_inj (by simp [id, resultName]) bar same).2, id] at letter
  simp [resultName] at letter

/-- The blocks have different labels if the state structures have different names. -/
theorem labels_nodup {module : Module} (distinct : (module.interfaces.map (·.state.name)).Nodup) :
    ((bodies module).map (·.label)).Nodup := by
  have apart (name other : String) : name ++ "_load" ≠ other ++ "_save" := by
    intro same
    simpa using congrArg (fun text : String => text.toList.getLast?) same
  have cases (table : DispatchTable) : ((caseBodies table).map (·.label)).Nodup := by
    rw [caseBodies, List.map_map]
    refine List.pairwise_map.mpr ((List.pairwise_map.mp table.cases.nodup_zipIdx_map_snd).imp ?_)
    exact fun differ same => differ (Nat.repr_inj.mp ((String.append_right_inj _).mp same))
  have states : ((module.interfaces.flatMap stateBodies).map (·.label)).Nodup := by
    rw [List.map_flatMap]
    refine List.nodup_flatMap.mpr ⟨fun _ _ => by simp [stateBodies, apart], ?_⟩
    refine (List.pairwise_map.mp distinct).imp fun differ => ?_
    simp [stateBodies, List.disjoint_left, differ, apart, (apart _ _).symm]
  rw [bodies]
  cases module.table with
  | none => simpa using states
  | some table =>
    rw [List.map_append]
    refine states.append (cases table) (List.disjoint_left.mpr fun label state case => ?_)
    -- The label of a case has no bar.
    have bar : '_' ∈ label.toList := by
      obtain ⟨body, member, rfl⟩ := List.mem_map.mp state
      obtain ⟨interface, -, member⟩ := List.mem_flatMap.mp member
      simp only [stateBodies, List.mem_cons, List.not_mem_nil, or_false] at member
      obtain rfl | rfl := member <;> simp
    simp only [Option.map_some, Option.getD_some, caseBodies, List.map_map, List.mem_map] at case
    obtain ⟨found, -, rfl⟩ := case
    simp at bar

end Names

section Edges

variable {instructions : List Instruction} {edge : Edge} {site : String × List Edge}

/-- The nodes that edges leave, each with its edges. -/
abbrev Sites := List (String × List Edge)

/-- If the nodes are told apart, an edge belongs to the node that it leaves. -/
theorem filter_sites {sites : Sites} (distinct : (sites.map Prod.fst).Nodup)
    (own : ∀ site ∈ sites, ∀ edge ∈ site.2, edge.source = site.1) (member : site ∈ sites) :
    (sites.flatMap Prod.snd).filter (·.source = site.1) = site.2 := by
  induction sites with
  | nil => cases member
  | cons head rest ih =>
    rw [List.map_cons, List.nodup_cons] at distinct
    rw [List.forall_mem_cons] at own
    rw [List.flatMap_cons, List.filter_append]
    rcases List.mem_cons.mp member with rfl | later
    · have foreign : (rest.flatMap Prod.snd).filter (·.source = site.1) = [] := by
        rw [List.filter_eq_nil_iff]
        intro edge found same
        obtain ⟨other, among, held⟩ := List.mem_flatMap.mp found
        rw [own.2 other among edge held, decide_eq_true_eq] at same
        exact distinct.1 (same ▸ List.mem_map_of_mem among)
      rw [foreign, List.append_nil]
      exact List.filter_eq_self.mpr fun edge held => decide_eq_true (own.1 edge held)
    · have foreign : head.2.filter (·.source = site.1) = [] := by
        rw [List.filter_eq_nil_iff]
        intro edge held same
        rw [own.1 edge held, decide_eq_true_eq] at same
        exact distinct.1 (same ▸ List.mem_map_of_mem later)
      rw [foreign, List.nil_append, ih distinct.2 own.2 later]

/-- The instructions of a block with the edges that leave them. -/
def leaving (label : String) : List Instruction → Sites
  | [] => []
  | i :: rest => (nodeName label i, outgoing label i rest.head?) :: leaving label rest

theorem blockEdges_eq (previous : Option String) (instructions : List Instruction) :
    blockEdges label previous instructions =
      (previous.bind fun source => instructions.head?.map fun i =>
        ⟨source, nodeName label i, []⟩).toList ++ (leaving label instructions).flatMap Prod.snd := by
  induction instructions generalizing previous with
  | nil => cases previous <;> rfl
  | cons i rest ih =>
    rw [blockEdges, ih, leaving, instructionEdges, List.flatMap_cons, outgoing]
    cases previous <;> cases rest <;> simp [leaving]

theorem mem_leaving :
    site ∈ leaving label instructions ↔ ∃ before i after, instructions = before ++ i :: after ∧
      site = (nodeName label i, outgoing label i after.head?) := by
  induction instructions with
  | nil => simp [leaving]
  | cons i rest ih =>
    rw [leaving, List.mem_cons, ih]
    constructor
    · rintro (rfl | ⟨before, j, after, rfl, rfl⟩)
      · exact ⟨[], i, rest, rfl, rfl⟩
      · exact ⟨i :: before, j, after, rfl, rfl⟩
    · rintro ⟨_ | ⟨_, before⟩, j, after, same, rfl⟩ <;> obtain ⟨rfl, rfl⟩ := List.cons.inj same
      · exact .inl rfl
      · exact .inr ⟨before, j, after, rfl, rfl⟩

theorem map_fst_leaving : (leaving label instructions).map Prod.fst =
    instructions.map (nodeName label) := by
  induction instructions with
  | nil => rfl
  | cons i rest ih => rw [leaving, List.map_cons, List.map_cons, ih]

end Edges

section Modules

/-- The edge of the dispatch to the case at an index. -/
def caseEdge (case : Case) (index : Nat) : List Edge :=
  (case.block.instructions.head?.map fun first =>
    ⟨"dispatch", nodeName ("case" ++ toString index) first,
      [("label", toString case.entry.binding.value)]⟩).toList

/-- The dispatch with its edges: one to each case, and one for the methods that no case has. -/
def dispatchSite (table : DispatchTable) : String × List Edge :=
  ("dispatch", (table.cases.zipIdx.flatMap fun (case, index) => caseEdge case index) ++
    [⟨"dispatch", abortName unhandledMessage, [("label", "_"), ("style", "dashed")]⟩])

/-- The nodes of a module that edges leave. -/
def sites (module : Module) : Sites :=
  (bodies module).flatMap (fun body => leaving body.label body.block.instructions) ++
    (module.table.map dispatchSite).toList

/-- What is drawn for a block. -/
def Body.elements (body : Body) : List Element :=
  blockElements body.block body.label body.title

/-- What is drawn for the dispatch: its node and its edges. -/
def dispatchElements (table : DispatchTable) : List Element :=
  .node ⟨"dispatch", [("label", table.symbol ++ "()\\nmethod_number()"), ("shape", "diamond"),
    ("fontname", "Helvetica")]⟩ :: (dispatchSite table).2.map .edge

theorem tableElements_perm (table : DispatchTable) : (tableElements table).Perm
    ((caseBodies table).flatMap (·.elements) ++ dispatchElements table) := by
  have cases : (table.cases.zipIdx.flatMap fun found => caseElements found.1 found.2).Perm
      ((caseBodies table).flatMap (·.elements) ++
        (table.cases.zipIdx.flatMap fun found => caseEdge found.1 found.2).map .edge) := by
    rw [caseBodies, List.flatMap_map, List.map_flatMap]
    refine .trans (.of_eq (List.flatMap_congr fun found _ => ?_)) (List.flatMap_append_perm ..).symm
    rw [caseElements, caseEdge]
    cases found.1.block.instructions.head? <;> rfl
  rw [tableElements, dispatchElements, dispatchSite, List.map_append]
  refine ((cases.append_left _).append_right _).trans (.trans (.of_eq ?_) List.perm_middle.symm)
  simp [unhandledAbort]

/-- The blocks, the dispatch and the exit codes are drawn, in some order. -/
theorem ofModule_perm (module : Module) : (ofModule module).Perm
    ((bodies module).flatMap (·.elements) ++ (module.table.map dispatchElements).getD [] ++
      ((firsts (moduleAborts module)).filterMap abortNode).map .node) := by
  have states : module.interfaces.flatMap interfaceElements =
      (module.interfaces.flatMap stateBodies).flatMap (·.elements) := by
    rw [List.flatMap_assoc]
    exact List.flatMap_congr fun _ _ => by simp [stateBodies, interfaceElements, Body.elements]
  rw [ofModule, ← List.map_filterMap, bodies, states]
  refine .append_right _ ?_
  cases module.table with
  | none => simp
  | some table => simpa using (tableElements_perm table).append_left _

theorem edges_perm (module : Module) :
    (edges (ofModule module)).Perm ((sites module).flatMap Prod.snd) := by
  have blocks (body : Body) : edges body.elements =
      (leaving body.label body.block.instructions).flatMap Prod.snd := by
    rw [Body.elements, blockElements, blockEdges_eq]
    simp [edges, List.flatMap_map]
  unfold edges at blocks
  refine ((ofModule_perm module).flatMap_right _).trans (.of_eq ?_)
  rw [sites, List.flatMap_append, List.flatMap_append, List.flatMap_append, List.flatMap_assoc,
    List.flatMap_assoc, List.flatMap_congr fun body _ => blocks body]
  cases module.table <;> simp [dispatchElements, List.flatMap_map]

theorem names_perm (module : Module) : (names module).Perm
    ((sites module).map Prod.fst ++
      ((firsts (moduleAborts module)).filterMap abortNode).map (·.name)) := by
  have blocks (body : Body) : (nodes body.elements).map (·.name) =
      (leaving body.label body.block.instructions).map Prod.fst := by
    rw [map_fst_leaving]
    simp [nodes, Body.elements, blockElements, List.flatMap_map, Function.comp_def, instructionNode]
  unfold nodes at blocks
  refine (((ofModule_perm module).flatMap_right _).map _).trans (.of_eq ?_)
  rw [sites, List.flatMap_append, List.flatMap_append, List.map_append, List.map_append,
    List.map_append, List.flatMap_assoc, List.map_flatMap,
    List.flatMap_congr fun body _ => blocks body, ← List.map_flatMap]
  cases module.table <;> simp [dispatchElements, dispatchSite, List.flatMap_map]

theorem mem_firsts {codes : List Int} : code ∈ firsts codes ↔ code ∈ codes := by
  induction codes with
  | nil => rfl
  | cons item rest ih =>
    rw [firsts, List.mem_cons, List.mem_filter, ih, decide_eq_true_eq, List.mem_cons]
    tauto

theorem nodup_firsts (codes : List Int) : (firsts codes).Nodup := by
  induction codes with
  | nil => exact .nil
  | cons item rest ih => exact .cons (by simp) (ih.filter _)

theorem mem_moduleAborts {module : Module} : code ∈ moduleAborts module ↔ Used module code := by
  have blocks : module.blocks = (bodies module).map (·.block) := by
    rw [bodies, Module.blocks]
    cases module.table with
    | none => simp [stateBodies, List.map_flatMap]
    | some table =>
      simp only [stateBodies, caseBodies, Option.map_some, Option.getD_some, List.map_append,
        List.map_flatMap, List.map_map]
      rw [← List.zipIdx_map_fst 0 table.cases, List.map_map, List.zipIdx_map_fst]
      rfl
  simp only [moduleAborts, Used, blocks, List.mem_append, List.mem_flatMap, List.mem_map,
    exists_exists_and_eq_and, Option.mem_toList, Option.map_eq_some_iff, Option.isSome_iff_exists]
  refine or_congr Iff.rfl ?_
  rw [exists_and_right, eq_comm]
  rfl

end Modules

section Orderly

/-- State structures have different names, results are numbered, and exit codes have names. -/
structure Orderly (module : Module) : Prop where
  states : (module.interfaces.map (·.state.name)).Nodup
  numbered : ∀ body ∈ bodies module, Numbered body.block.instructions
  named : ∀ code, Used module code →
    code ∈ [illegalState, serializationFailure, unhandledMessage]

variable {module : Module} {edge : Edge} {site : String × List Edge}

theorem map_fst_sites (module : Module) : (sites module).map Prod.fst =
    (bodies module).flatMap (·.names) ++ (module.table.map fun _ => "dispatch").toList := by
  have dispatch : (module.table.map dispatchSite).toList.map Prod.fst =
      (module.table.map fun _ => "dispatch").toList := by
    cases module.table <;> rfl
  rw [sites, List.map_append, dispatch, List.map_flatMap]
  simp only [map_fst_leaving]
  rfl

/-- The nodes are those that edges leave and one for each exit code that is used. -/
theorem Orderly.names_perm (orderly : Orderly module) : ∃ codes : List Int, codes.Nodup ∧
    (∀ code, code ∈ codes ↔ Used module code) ∧
    (names module).Perm ((sites module).map Prod.fst ++ codes.map abortName) := by
  have used (code : Int) : code ∈ firsts (moduleAborts module) ↔ Used module code := by
    rw [mem_firsts, mem_moduleAborts]
  have drawn : ∀ code ∈ [illegalState, serializationFailure, unhandledMessage],
      (abortNode code).map (·.name) = some (abortName code) := by
    decide
  refine ⟨_, nodup_firsts _, used, (Graph.names_perm _).trans (.of_eq ?_)⟩
  rw [List.map_filterMap, List.filterMap_congr fun code member =>
    drawn code (orderly.named code ((used code).mp member)), List.filterMap_eq_map']

theorem Orderly.names_nodup (orderly : Orderly module) : (names module).Nodup := by
  have id {body : Body} (member : body ∈ bodies module) := (orderly.numbered body member).2
  obtain ⟨codes, distinct, used, perm⟩ := orderly.names_perm
  rw [perm.nodup_iff, map_fst_sites]
  refine .append (.append (List.nodup_flatMap.mpr ⟨fun body member => ?_, ?_⟩)
    (by cases module.table <;> simp) ?_) (distinct.map fun code code' same => ?_) ?_
  · have ids := List.pairwise_map.mp (orderly.numbered body member).1
    refine List.pairwise_map.mpr (ids.imp_of_mem fun among among' differ same => ?_)
    exact differ (nodeName_inj (id member _ among) (id member _ among') same).2
  · have labels := List.pairwise_map.mp (labels_nodup orderly.states)
    refine labels.imp_of_mem fun member member' differ => List.disjoint_left.mpr ?_
    intro name here there
    obtain ⟨i, among, rfl⟩ := List.mem_map.mp here
    obtain ⟨j, among', same⟩ := List.mem_map.mp there
    exact differ (nodeName_inj (id member i among) (id member' j among') same.symm).1
  · refine List.disjoint_left.mpr fun name here there => ?_
    obtain ⟨body, -, member⟩ := List.mem_flatMap.mp here
    obtain ⟨i, -, rfl⟩ := List.mem_map.mp member
    obtain ⟨table, -, same⟩ := Option.map_eq_some_iff.mp (Option.mem_toList.mp there)
    exact nodeName_ne_dispatch same.symm
  · exact Int.repr_injective ((String.append_right_inj _).mp same)
  · refine List.disjoint_left.mpr fun name here there => ?_
    obtain ⟨code, found, rfl⟩ := List.mem_map.mp there
    rcases List.mem_append.mp here with instruction | dispatch
    · obtain ⟨body, member, among⟩ := List.mem_flatMap.mp instruction
      obtain ⟨i, among, same⟩ := List.mem_map.mp among
      exact nodeName_ne_abortName (id member i among) (orderly.named code ((used code).mp found))
        same
    · obtain ⟨table, -, same⟩ := Option.map_eq_some_iff.mp (Option.mem_toList.mp dispatch)
      have bar : '_' ∈ (abortName code).toList := by simp [abortName]
      rw [← same] at bar
      exact absurd bar (by decide)

/-- The edges of a node leave it, and lead to an instruction or to an exit code that is used. -/
theorem edge_of_site (member : site ∈ sites module) (held : edge ∈ site.2) :
    edge.source = site.1 ∧
      ((∃ body ∈ bodies module, edge.target ∈ body.names) ∨
        ∃ code, Used module code ∧ edge.target = abortName code) := by
  rcases List.mem_append.mp member with instruction | dispatch
  · obtain ⟨body, among, found⟩ := List.mem_flatMap.mp instruction
    obtain ⟨before, i, after, split, rfl⟩ := mem_leaving.mp found
    rcases List.mem_append.mp held with aborts | next
    · obtain ⟨spec, listed, rfl⟩ := List.mem_map.mp aborts
      exact ⟨rfl, .inr ⟨_, .inl ⟨body, among, i, by simp [split], spec, listed, rfl⟩, rfl⟩⟩
    · obtain ⟨j, head, rfl⟩ := Option.map_eq_some_iff.mp (Option.mem_toList.mp next)
      have later := List.mem_of_mem_head? head
      exact ⟨rfl, .inl ⟨body, among, List.mem_map_of_mem (by simp [split, later])⟩⟩
  · obtain ⟨table, found, rfl⟩ := Option.map_eq_some_iff.mp (Option.mem_toList.mp dispatch)
    rcases List.mem_append.mp held with cases | default
    · obtain ⟨⟨case, index⟩, among, found'⟩ := List.mem_flatMap.mp cases
      obtain ⟨first, head, rfl⟩ := Option.map_eq_some_iff.mp (Option.mem_toList.mp found')
      obtain ⟨title, drawn⟩ : ∃ title, ⟨"case" ++ toString index, title, case.block⟩ ∈
          bodies module := by
        rw [bodies, found]
        exact ⟨_, List.mem_append_right _ (List.mem_map_of_mem among)⟩
      exact ⟨rfl, .inl ⟨_, drawn, List.mem_map_of_mem (List.mem_of_mem_head? head)⟩⟩
    · obtain rfl := List.mem_singleton.mp default
      exact ⟨rfl, .inr ⟨_, .inr ⟨by rw [found]; rfl, rfl⟩, rfl⟩⟩

theorem Orderly.edges_closed (orderly : Orderly module) (member : edge ∈ edges (ofModule module)) :
    edge.source ∈ names module ∧ edge.target ∈ names module := by
  obtain ⟨codes, -, used, perm⟩ := orderly.names_perm
  obtain ⟨site, among, held⟩ := List.mem_flatMap.mp ((edges_perm _).mem_iff.mp member)
  obtain ⟨source, target⟩ := edge_of_site among held
  rw [perm.mem_iff, perm.mem_iff, source]
  refine ⟨List.mem_append_left _ (List.mem_map_of_mem among), ?_⟩
  obtain ⟨body, listed, target⟩ | ⟨code, used', target⟩ := target
  · rw [map_fst_sites, List.append_assoc]
    exact List.mem_append_left _ (List.mem_flatMap.mpr ⟨body, listed, target⟩)
  · rw [target]
    exact List.mem_append_right _ (List.mem_map_of_mem ((used code).mpr used'))

theorem Orderly.filter_edges (orderly : Orderly module) (member : site ∈ sites module) :
    ((edges (ofModule module)).filter (·.source = site.1)).Perm site.2 := by
  obtain ⟨codes, -, -, perm⟩ := orderly.names_perm
  have apart := (perm.nodup_iff.mp orderly.names_nodup).of_append_left
  refine ((edges_perm _).filter _).trans (.of_eq ?_)
  exact filter_sites apart (fun site among edge held => (edge_of_site among held).1) member

end Orderly

section Lowered

variable {program : Program} {symbol : String} {body : Body}

/-- A block of at least one step, with the exit codes that steps abort with. -/
def Lowered (block : Block) : Prop :=
  ∃ name steps, block = .ofSteps name steps ∧ steps ≠ [] ∧
    ∀ step ∈ steps, step.aborts.map (·.2.exitCode) ⊆ [illegalState, serializationFailure]

theorem lowered_entry (entry : EntryPoint) (stateType : String) :
    Lowered (lowerEntry entry stateType) := by
  refine ⟨_, _, rfl, by simp [entrySteps], ?_⟩
  intro step member
  simp only [entrySteps, argumentSteps, loadStateSteps, List.mem_append, List.mem_ite_nil_left,
    List.mem_ite_nil_right, List.mem_cons, List.not_mem_nil, or_false] at member
  rcases member with ((((⟨-, rfl | rfl⟩ | ⟨-, rfl⟩) | rfl) | ⟨-, rfl⟩) | ⟨-, rfl⟩) | rfl <;>
    simp [onError]

theorem lowered_of_mem (member : body ∈ bodies (lower program symbol)) : Lowered body.block := by
  rcases List.mem_append.mp member with states | cases
  · simp only [lower, stateBodies, List.flatMap_map, List.mem_flatMap, List.mem_cons,
      List.not_mem_nil, or_false] at states
    obtain ⟨state, -, rfl | rfl⟩ := states <;>
      exact ⟨_, _, rfl, by simp [loadSteps, saveSteps], by simp [loadSteps, saveSteps, onError]⟩
  · cases found : program.actor with
    | none => simp [lower, found] at cases
    | some actor =>
      simp only [lower, found, Option.map_some, Option.getD_some, caseBodies, List.mem_map] at cases
      obtain ⟨⟨case, index⟩, among, rfl⟩ := cases
      obtain ⟨entry, -, rfl⟩ := List.mem_map.mp (List.fst_mem_of_mem_zipIdx among)
      exact lowered_entry entry actor.name

theorem orderly_lower (distinct : (program.states.map (·.name)).Nodup) (symbol : String) :
    Orderly (lower program symbol) where
  states := by simpa [lower, lowerState, Function.comp_def] using distinct
  numbered := by
    intro body member
    obtain ⟨name, steps, same, -⟩ := lowered_of_mem member
    rw [same]
    exact numbered_ofSteps name steps
  named := by
    rintro code (⟨body, member, i, among, abort, found, rfl⟩ | ⟨-, rfl⟩)
    · obtain ⟨name, steps, same, -, codes⟩ := lowered_of_mem member
      rw [same] at among
      obtain ⟨⟨step, index⟩, member, rfl⟩ := List.mem_map.mp among
      have code := codes step (List.fst_mem_of_mem_zipIdx member) (List.mem_map_of_mem found)
      exact List.mem_append_left [unhandledMessage] code
    · simp

/-- The nodes of a graph are those of the instructions, the dispatch and the exit codes that are
used, and all of them have different names. Edges begin and end at nodes. An instruction has a
dashed edge for each of its aborts, a plain one to the next instruction and no other ones, and the
dispatch one to the first instruction of each case and one to the default. -/
theorem graph_closed_and_unambiguous (distinct : (program.states.map (·.name)).Nodup)
    (symbol : String) :
    let module := lower program symbol
    let edges := edges (ofModule module)
    (names module).Nodup ∧
      (∃ codes : List Int, codes.Nodup ∧ (∀ code, code ∈ codes ↔ Used module code) ∧
        (names module).Perm ((bodies module).flatMap (·.names) ++
          (program.actor.map fun _ => "dispatch").toList ++ codes.map abortName)) ∧
      (∀ edge ∈ edges, edge.source ∈ names module ∧ edge.target ∈ names module) ∧
      (∀ body ∈ bodies module, ∀ before i after, body.block.instructions = before ++ i :: after →
        (edges.filter (·.source = nodeName body.label i)).Perm
          (outgoing body.label i after.head?)) ∧
      ∀ actor, program.actor = some actor → ∃ first : EntryPoint → Instruction,
        (∀ entry, (lowerEntry entry actor.name).instructions.head? = some (first entry)) ∧
        (edges.filter (·.source = "dispatch")).Perm
          (actor.entryPoints.zipIdx.map (fun (entry, index) =>
              ⟨"dispatch", nodeName ("case" ++ toString index) (first entry),
                [("label", toString entry.binding.value)]⟩) ++
            [⟨"dispatch", abortName unhandledMessage, [("label", "_"), ("style", "dashed")]⟩]) := by
  have orderly := orderly_lower distinct symbol
  have dispatch : ((lower program symbol).table.map fun _ => "dispatch") =
      program.actor.map fun _ => "dispatch" := by
    rw [lower, Option.map_map]
    rfl
  refine ⟨orderly.names_nodup, ?_, fun edge => orderly.edges_closed, ?_, ?_⟩
  · rw [← dispatch, ← map_fst_sites]
    exact orderly.names_perm
  · intro body member before i after split
    have among : (nodeName body.label i, outgoing body.label i after.head?) ∈
        leaving body.label body.block.instructions :=
      mem_leaving.mpr ⟨before, i, after, split, rfl⟩
    exact orderly.filter_edges (List.mem_append_left _ (List.mem_flatMap.mpr ⟨body, member, among⟩))
  · intro actor found
    have begins (entry : EntryPoint) :
        ∃ first, (lowerEntry entry actor.name).instructions.head? = some first := by
      obtain ⟨name, _ | ⟨step, steps⟩, same, some, -⟩ := lowered_entry entry actor.name
      · exact absurd rfl some
      · exact ⟨_, congrArg (·.instructions.head?) same⟩
    choose first begins using begins
    refine ⟨first, begins, ?_⟩
    have table : (lower program symbol).table = some (lowerActor actor symbol) := by
      rw [lower, found]
      rfl
    have among : dispatchSite (lowerActor actor symbol) ∈ sites (lower program symbol) := by
      refine List.mem_append_right _ ?_
      rw [table]
      exact List.mem_singleton_self _
    refine (orderly.filter_edges among).trans (.of_eq ?_)
    simp [dispatchSite, lowerActor, List.zipIdx_map, List.flatMap_map, caseEdge, begins,
      ← List.map_eq_flatMap]

/-- States named for the first case, for a block of that state and for an exit code. The edge to the
case ends at its node. -/
theorem graph_of_lookalikes :
    let program : Program := ⟨["case0", "case0_load", "abort"].map fun name =>
        ⟨name, name, [], .dagCbor⟩, [],
      some ⟨"case0", .methodNumber, [⟨"init", ⟨1, by decide⟩, .write, false, []⟩]⟩⟩
    let module := lower program "invoke"
    let edge : Edge := ⟨"dispatch", "case0_g0", [("label", "1")]⟩
    (program.states.map (·.name)).Nodup ∧ (names module).Nodup ∧
      edge ∈ edges (ofModule module) ∧ edge.source ∈ names module ∧ edge.target ∈ names module := by
  intro program module edge
  have distinct : (program.states.map (·.name)).Nodup := by decide
  have drawn : edge ∈ edges (ofModule module) := by decide +kernel
  obtain ⟨nodes, -, closed, -⟩ := graph_closed_and_unambiguous distinct "invoke"
  exact ⟨distinct, nodes, drawn, closed edge drawn⟩

end Lowered

end ActorGlue.Graph
