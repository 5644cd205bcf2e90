import CallGraph.Proofs.Analysis.Measures

/-!
# Roles of nodes

The rules for roles are tried in order, so that each rule speaks of those nodes only to which no
earlier rule applies.  Whether a node is an orphan depends on nothing but its component; the ends of
the graph are told from its edges, once orphans and hubs are set apart.  Every node has one role,
whatever the thresholds are.

Main results:

- Theorem `Measures.ruledBy_role`: the rule that gives a node its role.
- Theorem `Graph.classify_eq_ok_iff`: when nodes can be classified.
- Theorem `Classification.perm_flatMap_nodesWith`: each node is listed with one of the roles.
- Theorem `Graph.roles_found`: what the roles of the nodes of a graph say of the graph.
-/

namespace CallGraph

/-! ## Rules -/

namespace Measures

variable {m : Measures} {settings : RoleSettings} {t : Thresholds}

/-- A rule gives the role: it applies, and none of the rules before it does. -/
inductive RuledBy (m : Measures) (settings : RoleSettings) (t : Thresholds) : Role → Prop
  | orphan (small : m.componentSize < settings.orphanComponentSize) : RuledBy m settings t .orphan
  | hub (large : settings.orphanComponentSize ≤ m.componentSize) (central : m.isHub t = true) :
      RuledBy m settings t .hub
  | entryPoint (large : settings.orphanComponentSize ≤ m.componentSize)
      (ordinary : m.isHub t = false) (uncalled : m.degrees.incoming = 0) :
      RuledBy m settings t .entryPoint
  | terminal (large : settings.orphanComponentSize ≤ m.componentSize)
      (ordinary : m.isHub t = false) (called : m.degrees.incoming ≠ 0)
      (final : m.degrees.outgoing = 0) : RuledBy m settings t .terminal
  | utility (large : settings.orphanComponentSize ≤ m.componentSize)
      (ordinary : m.isHub t = false) (called : m.degrees.incoming ≠ 0)
      (calls : m.degrees.outgoing ≠ 0) (useful : m.isUtility t = true) :
      RuledBy m settings t .utility
  | unclassified (large : settings.orphanComponentSize ≤ m.componentSize)
      (ordinary : m.isHub t = false) (called : m.degrees.incoming ≠ 0)
      (calls : m.degrees.outgoing ≠ 0) (other : m.isUtility t = false) :
      RuledBy m settings t .unclassified

/-- The role of a node comes from the first rule that applies. -/
theorem ruledBy_role (m : Measures) (settings : RoleSettings) (t : Thresholds) :
    m.RuledBy settings t (m.role settings t) := by
  unfold role
  split
  · exact .orphan ‹_›
  rename_i hlarge
  have hlarge := Nat.not_lt.1 hlarge
  split
  · exact .hub hlarge ‹_›
  rename_i hordinary
  have hordinary := Bool.eq_false_iff.2 hordinary
  split
  · exact .entryPoint hlarge hordinary ‹_›
  split
  · exact .terminal hlarge hordinary ‹_› ‹_›
  split
  · exact .utility hlarge hordinary ‹_› ‹_› ‹_›
  rename_i hother
  exact .unclassified hlarge hordinary ‹_› ‹_› (Bool.eq_false_iff.2 hother)

namespace RuledBy

variable {role : Role} (h : m.RuledBy settings t role)

include h

/-- The first rule: nodes in small components are orphans. -/
theorem eq_orphan_iff : role = .orphan ↔ m.componentSize < settings.orphanComponentSize := by
  cases h with
  | orphan small => simp [small]
  | _ large => simp [large]

/-- The third rule, where the first two do not apply. -/
theorem eq_entryPoint_iff (horphan : role ≠ .orphan) (hhub : role ≠ .hub) :
    role = .entryPoint ↔ m.degrees.incoming = 0 := by
  cases h with
  | orphan => exact absurd rfl horphan
  | hub => exact absurd rfl hhub
  | entryPoint _ _ uncalled => simp [uncalled]
  | terminal _ _ called => simp [called]
  | utility _ _ called => simp [called]
  | unclassified _ _ called => simp [called]

/-- The fourth rule, where the first two do not apply. -/
theorem eq_terminal_iff (horphan : role ≠ .orphan) (hhub : role ≠ .hub) :
    role = .terminal ↔ m.degrees.incoming ≠ 0 ∧ m.degrees.outgoing = 0 := by
  cases h with
  | orphan => exact absurd rfl horphan
  | hub => exact absurd rfl hhub
  | entryPoint _ _ uncalled => simp [uncalled]
  | terminal _ _ called final => simp [called, final]
  | utility _ _ called calls => simp [calls]
  | unclassified _ _ called calls => simp [calls]

/-- The last two roles are left to nodes that are called and that call others. -/
theorem eq_utility_or_unclassified_iff (horphan : role ≠ .orphan) (hhub : role ≠ .hub) :
    role = .utility ∨ role = .unclassified ↔
      m.degrees.incoming ≠ 0 ∧ m.degrees.outgoing ≠ 0 := by
  cases h with
  | orphan => exact absurd rfl horphan
  | hub => exact absurd rfl hhub
  | entryPoint _ _ uncalled => simp [uncalled]
  | terminal _ _ called final => simp [final]
  | utility _ _ called calls => simp [called, calls]
  | unclassified _ _ called calls => simp [called, calls]

omit h in
/-- The rule for utilities asks for a complexity. -/
theorem exists_complexity (h : m.RuledBy settings t .utility) :
    ∃ complexity, m.complexity = some complexity := by
  cases h with
  | utility _ _ _ _ useful =>
    rw [isUtility] at useful
    split at useful
    · rename_i complexity most hcomplexity hmost
      exact ⟨complexity, hcomplexity⟩
    · cases useful

end RuledBy

end Measures

/-! ## Nodes by role -/

theorem Role.mem_all (role : Role) : role ∈ Role.all := by
  cases role <;> decide

namespace Classification

variable {c : Classification} {role : Role} {id : String}

/-- A role is found under an id if an entry of the classification gives it. -/
theorem role?_eq_some_iff (h : (c.nodes.map (·.id)).Nodup) :
    c.role? id = some role ↔ ∃ entry ∈ c.nodes, entry.id = id ∧ entry.role = role := by
  rw [role?, Option.map_eq_some_iff]
  simp only [find?_key_eq_some_iff h, and_assoc]

/-- A role is found under the ids that are classified. -/
theorem isSome_role?_iff : (c.role? id).isSome = true ↔ id ∈ c.nodes.map (·.id) := by
  simp [role?]

/-- The ids listed for a role are those under which it is found. -/
theorem mem_nodesWith_iff (h : (c.nodes.map (·.id)).Nodup) :
    id ∈ c.nodesWith role ↔ c.role? id = some role := by
  rw [role?_eq_some_iff h, nodesWith, List.mem_map]
  simp only [List.mem_filter, beq_iff_eq]
  constructor
  · rintro ⟨entry, ⟨hentry, hrole⟩, hid⟩
    exact ⟨entry, hentry, hid, hrole⟩
  · rintro ⟨entry, hentry, hid, hrole⟩
    exact ⟨entry, ⟨hentry, hrole⟩, hid⟩

/-- Each node is listed with one of the roles. -/
theorem perm_flatMap_nodesWith (c : Classification) :
    (Role.all.flatMap c.nodesWith).Perm (c.nodes.map (·.id)) := by
  have hgroups : Role.all.flatMap c.nodesWith =
      (Role.all.flatMap fun role => c.nodes.filter (·.role == role)).map (·.id) :=
    (List.map_flatMap ..).symm
  rw [hgroups]
  exact (perm_flatMap_filter (by decide) fun entry _ => Role.mem_all entry.role).map _

/-- A role is counted if there is a node with it. -/
theorem mem_counts_iff {count : Nat} :
    (role, count) ∈ c.counts ↔ count = (c.nodesWith role).length ∧ count ≠ 0 := by
  simp only [counts, List.mem_filter, List.mem_map, Prod.mk.injEq, decide_eq_true_eq,
    Nat.pos_iff_ne_zero]
  constructor
  · rintro ⟨⟨_, -, rfl, rfl⟩, hcount⟩
    exact ⟨rfl, hcount⟩
  · rintro ⟨rfl, hcount⟩
    exact ⟨⟨role, Role.mem_all role, rfl, rfl⟩, hcount⟩

/-- Roles that do not occur are left out of the counts, which does not change their sum. -/
theorem sum_counts (c : Classification) : (c.counts.map (·.2)).sum = c.nodes.length := by
  have hdropped (counts : List (Role × Nat)) :
      ((counts.filter (0 < ·.2)).map (·.2)).sum = (counts.map (·.2)).sum := by
    induction counts with
    | nil => rfl
    | cons first rest ih =>
      by_cases hfirst : 0 < first.2
      · simp [hfirst, ih]
      · simp [Nat.eq_zero_of_not_pos hfirst, ih]
  have hlength := c.perm_flatMap_nodesWith.length_eq
  rw [List.length_map, List.length_flatMap] at hlength
  rw [counts, hdropped, List.map_map, ← hlength]
  rfl

end Classification

/-! ## Classifying the nodes of a graph -/

/-- The classification that measures lead to. -/
def Classification.ofMeasures (settings : RoleSettings) (measures : List (String × Measures)) :
    Classification :=
  let thresholds := Thresholds.ofMeasures settings (measures.map (·.2))
  { nodes := measures.map fun (id, m) => ⟨id, m.role settings thresholds, m⟩
    thresholds := thresholds }

namespace Graph

variable {g : Graph} {settings : RoleSettings} {centrality : CentralitySettings}
  {c : Classification}

/-- Nodes can be classified if the settings are in their ranges and the walk can be taken. -/
theorem classify_eq_ok_iff :
    g.classify settings centrality = .ok c ↔ settings.error? = none ∧
      ∃ measures, g.measures centrality = .ok measures ∧ c = .ofMeasures settings measures := by
  unfold classify
  cases settings.error? with
  | some error => simp
  | none =>
    cases g.measures centrality with
    | error error => simp
    | ok measures =>
      simp only [Except.ok.injEq, true_and, exists_eq_left']
      exact eq_comm

/-- Nodes are classified if the settings are in range and PageRank has an answer. -/
theorem exists_classify_eq_ok (hsettings : settings.error? = none)
    (hwalk : ∃ ranks, g.pageRank centrality = .ok ranks) :
    ∃ c, g.classify settings centrality = .ok c := by
  obtain ⟨ranks, hranks⟩ := hwalk
  have hmeasures := measures_eq_ok_iff.2 ⟨ranks, hranks, rfl⟩
  exact ⟨_, classify_eq_ok_iff.2 ⟨hsettings, _, hmeasures, rfl⟩⟩

/-- Roles are given to the nodes of the graph and to nothing else. -/
theorem WellFormed.map_id_classify (hg : g.WellFormed)
    (h : g.classify settings centrality = .ok c) : c.nodes.map (·.id) = g.nodeIds := by
  obtain ⟨-, measures, hmeasures, rfl⟩ := classify_eq_ok_iff.1 h
  rw [← hg.map_fst_measures hmeasures, Classification.ofMeasures, List.map_map]
  rfl

/-- No two entries of a classification have one id. -/
theorem WellFormed.nodup_ids_of_classify (hg : g.WellFormed)
    (h : g.classify settings centrality = .ok c) : (c.nodes.map (·.id)).Nodup :=
  hg.map_id_classify h ▸ nodup_nodeIds g

/-- What the roles of the nodes of a graph say of the graph.  Each node has one role, and its own
measures gave it the role. -/
structure RolesFound (g : Graph) (settings : RoleSettings) (centrality : CentralitySettings)
    (c : Classification) : Prop where
  ids : c.nodes.map (·.id) = g.nodeIds
  measured : ∀ entry ∈ c.nodes, g.Measured centrality entry.id entry.measures ∧
    entry.measures.RuledBy settings c.thresholds entry.role
  thresholds : c.thresholds = .ofMeasures settings (c.nodes.map (·.measures))
  groups : (Role.all.flatMap c.nodesWith).Perm g.nodeIds
  group : ∀ role, (c.nodesWith role).Pairwise (· < ·) ∧
    ∀ id, id ∈ c.nodesWith role ↔ c.role? id = some role
  counts : (c.counts.map (·.2)).sum = g.nodeCount ∧
    ∀ role count, (role, count) ∈ c.counts ↔ count = (c.nodesWith role).length ∧ count ≠ 0
  orphan_iff : ∀ id, g.contains id = true → (c.role? id = some .orphan ↔
    {other | g.AreConnected .weak id other}.encard < settings.orphanComponentSize)
  others_iff : ∀ id role, c.role? id = some role → role ≠ .orphan → role ≠ .hub →
    (role = .entryPoint ↔ ∀ caller, g.hasEdge caller id = false) ∧
    (role = .terminal ↔
      (∃ caller, g.hasEdge caller id = true) ∧ ∀ callee, g.hasEdge id callee = false) ∧
    (role = .utility ∨ role = .unclassified ↔
      (∃ caller, g.hasEdge caller id = true) ∧ ∃ callee, g.hasEdge id callee = true)
  utility : ∀ id, c.role? id = some .utility → ∃ node object source,
    g.node? id = some node ∧ node.object = some object ∧ object.source = some source

/-- Every node is classified by its own measures. -/
theorem WellFormed.measured_of_classify (hg : g.WellFormed)
    (h : g.classify settings centrality = .ok c) {entry : Classified} (hentry : entry ∈ c.nodes) :
    g.Measured centrality entry.id entry.measures ∧
      entry.measures.RuledBy settings c.thresholds entry.role := by
  obtain ⟨-, measures, hmeasures, rfl⟩ := classify_eq_ok_iff.1 h
  obtain ⟨⟨id, m⟩, hm, rfl⟩ := List.mem_map.1 hentry
  exact ⟨hg.measured hmeasures hm, Measures.ruledBy_role m settings _⟩

/-- Whoever has a role was given it by a rule, from the measures of its node. -/
theorem WellFormed.exists_ruledBy (hg : g.WellFormed) (h : g.classify settings centrality = .ok c)
    {id : String} {role : Role} (hrole : c.role? id = some role) :
    ∃ m, g.contains id = true ∧ g.Measured centrality id m ∧
      m.RuledBy settings c.thresholds role := by
  obtain ⟨entry, hentry, rfl, rfl⟩ :=
    (Classification.role?_eq_some_iff (hg.nodup_ids_of_classify h)).1 hrole
  obtain ⟨hmeasured, hruled⟩ := hg.measured_of_classify h hentry
  have hid : entry.id ∈ g.nodeIds := hg.map_id_classify h ▸ List.mem_map_of_mem hentry
  exact ⟨entry.measures, mem_nodeIds_iff.1 hid, hmeasured, hruled⟩

/-- Whatever classification is found, its roles are those of the rules. -/
theorem WellFormed.rolesFound (hg : g.WellFormed) (h : g.classify settings centrality = .ok c) :
    g.RolesFound settings centrality c := by
  have hids := hg.map_id_classify h
  constructor
  case ids => exact hids
  case measured => exact fun entry hentry => hg.measured_of_classify h hentry
  case thresholds =>
    obtain ⟨-, measures, -, rfl⟩ := classify_eq_ok_iff.1 h
    simp only [Classification.ofMeasures, List.map_map, Function.comp_def]
  case groups => exact hids ▸ c.perm_flatMap_nodesWith
  case group =>
    intro role
    have hsublist : (c.nodesWith role).Sublist g.nodeIds := by
      rw [← hids]
      exact List.filter_sublist.map _
    exact ⟨(pairwise_nodeIds g).sublist hsublist, fun id =>
      Classification.mem_nodesWith_iff (hg.nodup_ids_of_classify h)⟩
  case counts =>
    refine ⟨?_, fun role count => Classification.mem_counts_iff⟩
    rw [c.sum_counts, ← hg.length_nodeIds, ← hids, List.length_map]
  case orphan_iff =>
    intro id hid
    have hsome : (c.role? id).isSome = true :=
      Classification.isSome_role?_iff.2 (hids ▸ mem_nodeIds_iff.2 hid)
    obtain ⟨role, hrole⟩ := Option.isSome_iff_exists.1 hsome
    obtain ⟨m, -, hmeasured, hruled⟩ := hg.exists_ruledBy h hrole
    rw [hrole, Option.some.injEq, hruled.eq_orphan_iff, hmeasured.componentSize, Nat.cast_lt]
  case others_iff =>
    intro id role hrole horphan hhub
    obtain ⟨m, hid, hmeasured, hruled⟩ := hg.exists_ruledBy h hrole
    have hincoming := hmeasured.incoming_eq_zero_iff hg hid
    have houtgoing := hmeasured.outgoing_eq_zero_iff hg hid
    rw [hruled.eq_entryPoint_iff horphan hhub, hruled.eq_terminal_iff horphan hhub,
      hruled.eq_utility_or_unclassified_iff horphan hhub, Ne, Ne, hincoming, houtgoing]
    simp only [not_forall, Bool.not_eq_false, and_self]
  case utility =>
    intro id hrole
    obtain ⟨m, -, hmeasured, hruled⟩ := hg.exists_ruledBy h hrole
    obtain ⟨complexity, hcomplexity⟩ := hruled.exists_complexity
    exact hmeasured.exists_source hcomplexity

/-- If the settings are in their ranges and the walk can be taken, every node gets one role, which
tells how the node is connected. -/
theorem roles_found (h : g.Reachable) (hsettings : settings.error? = none)
    (hwalk : ∃ ranks, g.pageRank centrality = .ok ranks) :
    ∃ c, g.classify settings centrality = .ok c ∧ g.RolesFound settings centrality c := by
  obtain ⟨c, hclassify⟩ := exists_classify_eq_ok hsettings hwalk
  exact ⟨c, hclassify, h.wellFormed.rolesFound hclassify⟩

/-- Three nodes in a row, the middle one with source, and a node apart. -/
def rowWithSpare : List Operation :=
  [.addNode ⟨"spare", "spare", "", .unknown, none, .empty⟩,
    .addNode ⟨"main", "main", "", .procedure, none, .empty⟩,
    .addNode (.ofObject { id := "step", name := "step", kind := .function, source := some "x" }),
    .addNode ⟨"leaf", "leaf", "", .unknown, none, .empty⟩, .addEdge "main" "step",
    .addEdge "step" "leaf"]

/-- The spare node of a row is an orphan, and a node of the row is not. -/
theorem roles_found_rowWithSpare :
    (after rowWithSpare).Reachable ∧ ({} : RoleSettings).error? = none ∧
      (∃ ranks, (after rowWithSpare).pageRank {} = .ok ranks) ∧
      ∃ c, (after rowWithSpare).classify {} {} = .ok c ∧
        (after rowWithSpare).RolesFound {} {} c ∧ c.role? "spare" = some .orphan ∧
        c.role? "step" ≠ some .orphan := by
  have hreachable : (after rowWithSpare).Reachable := ⟨rowWithSpare, rfl⟩
  have hsettings : ({} : RoleSettings).error? = none := rfl
  have hwalk : ∃ ranks, (after rowWithSpare).pageRank {} = .ok ranks :=
    ⟨_, (if_neg (by decide)).trans (if_pos (by decide))⟩
  have hcomponents : (after rowWithSpare).components .weak =
      [["leaf", "main", "step"], ["spare"]] := by decide
  have hsize (id : String) (h : (after rowWithSpare).contains id = true) :=
    hcomponents ▸ hreachable.wellFormed.encard_connected h
  obtain ⟨c, hc, hroles⟩ := roles_found hreachable hsettings hwalk
  have hspare : (after rowWithSpare).contains "spare" = true := by decide
  have hstep : (after rowWithSpare).contains "step" = true := by decide
  refine ⟨hreachable, hsettings, hwalk, c, hc, hroles, ?_, ?_⟩
  · rw [hroles.orphan_iff "spare" hspare, hsize "spare" hspare]
    decide
  · rw [Ne, hroles.orphan_iff "step" hstep, hsize "step" hstep]
    decide

end Graph

end CallGraph
