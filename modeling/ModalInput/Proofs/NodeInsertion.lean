/-
# ModalInput.Proofs.NodeInsertion -- a sequence that is added to the nodes of a table

An insertion follows the edges of its keys as far as there are any, and makes the others.  A
new node has a number that no other has, as long as numbers are left, and no value: so it
leads nowhere and is led to by one edge, and what the table answers does not change before
the last node gets its value.  While keys are added, only the node that was reached leads to
nothing (`Followed`).

* `Linked.addBehind`, `Linked.addRoot` -- a new node keeps the nodes linked.
* `Followed.extend` -- one more key of the sequence.
* `Tidy.replace` -- an insertion: the new value is there, and nothing else has changed.
-/
import ModalInput.Proofs.NodeLinks

namespace ModalInput.NodeTable

set_option autoImplicit false

variable {μ κ ν : Type} [DecidableEq μ] [DecidableEq κ] {table : NodeTable μ κ ν}

/-! ## New nodes -/

/-- While numbers are left, the next one is that of no node. -/
theorem Linked.fresh (linked : Linked table) (room : table.made < UInt64.size) :
    table.nodes.get? table.nextId = none := by
  cases found : table.nodes.get? table.nextId with
  | none => rfl
  | some node =>
      have lower := linked.numbered _ node found
      have number : table.nextId.number.toNat = table.made := UInt64.toNat_ofNat_of_lt room
      omega

/-- Nothing starts at a node that is not there. -/
theorem Linked.follow?_of_none (linked : Linked table) {id : NodeId}
    (absent : table.nodes.get? id = none) (key : κ) : table.follow? id key = none := by
  cases leads : table.follow? id key with
  | none => rfl
  | some next =>
      have start := linked.start leads
      rw [absent] at start
      cases start

omit [DecidableEq μ] [DecidableEq κ] in
theorem get?_addNode (table : NodeTable μ κ ν) (parent : Option (NodeId × κ)) (id : NodeId) :
    (table.addNode parent).nodes.get? id =
      if id = table.nextId then some { parent } else table.nodes.get? id :=
  Directory.get?_insert _ _ _ _

/-- Nothing that could be found before has another value, if all that is new is a node
without a value. -/
theorem get?_of_fresh {next : NodeTable μ κ ν} {fresh : NodeId}
    (absent : table.nodes.get? fresh = none) (linked : Linked table)
    (finds : ∀ mode keys id, table.find? mode keys = some id → next.find? mode keys = some id)
    (found : ∀ mode keys id, next.find? mode keys = some id →
      id = fresh ∨ table.find? mode keys = some id)
    (values : ∀ id, id ≠ fresh → next.value? id = table.value? id)
    (none : next.value? fresh = none) (mode : μ) (keys : List κ) :
    next.get? mode keys = table.get? mode keys := by
  unfold get?
  cases here : table.find? mode keys with
  | none =>
      cases there : next.find? mode keys with
      | none => rfl
      | some id =>
          rcases found mode keys id there with rfl | known
          · exact none
          · rw [here] at known
            cases known
  | some id =>
      have stored := linked.stored here
      have differs : id ≠ fresh := by
        rintro rfl
        rw [absent] at stored
        cases stored
      rw [finds mode keys id here]
      exact values id differs

/-! ## A new root -/

/-- With a root for a mode that has none. -/
def addRoot (table : NodeTable μ κ ν) (mode : μ) : NodeTable μ κ ν :=
  { table.addNode none with roots := table.roots.insert mode table.nextId }

omit [DecidableEq κ] in
theorem rootOf_of_some {mode : μ} {id : NodeId} (rooted : table.roots.get? mode = some id) :
    table.rootOf mode = (table, id) := by
  simp only [rootOf, rooted]

omit [DecidableEq κ] in
theorem rootOf_of_none {mode : μ} (absent : table.roots.get? mode = none) :
    table.rootOf mode = (table.addRoot mode, table.nextId) := by
  simp only [rootOf, absent, addRoot]

omit [DecidableEq κ] in
theorem nodes_addRoot (table : NodeTable μ κ ν) (mode : μ) (id : NodeId) :
    (table.addRoot mode).nodes.get? id =
      if id = table.nextId then some { parent := none } else table.nodes.get? id :=
  table.get?_addNode none id

omit [DecidableEq κ] in
theorem roots_addRoot (table : NodeTable μ κ ν) (mode mode' : μ) :
    (table.addRoot mode).roots.get? mode' =
      if mode' = mode then some table.nextId else table.roots.get? mode' :=
  Directory.get?_insert _ _ _ _

section Root

variable {mode : μ} (linked : Linked table) (room : table.made < UInt64.size)
  (absent : table.roots.get? mode = none)

include linked room absent

theorem Linked.addRoot : Linked (table.addRoot mode) := by
  have fresh := linked.fresh room
  have number : table.nextId.number.toNat = table.made := UInt64.toNat_ofNat_of_lt room
  have old {id : NodeId} {node' : TableNode κ ν} (found : table.nodes.get? id = some node') :
      id ≠ table.nextId := by
    rintro rfl
    rw [fresh] at found
    cases found
  have others {mode' : μ} {id : NodeId} (rooted : table.roots.get? mode' = some id) :
      id ≠ table.nextId := old (linked.root mode' id rooted)
  constructor
  case numbered =>
    intro id node' found
    show id.number.toNat < table.made + 1
    rw [nodes_addRoot] at found
    split at found
    · rename_i same
      rw [same, number]
      exact Nat.lt_succ_self _
    · exact Nat.lt_succ_of_lt (linked.numbered id node' found)
  case root =>
    intro mode' id rooted
    rw [roots_addRoot] at rooted
    rw [nodes_addRoot]
    split at rooted
    · cases rooted
      rw [if_pos rfl]
    · rw [if_neg (others rooted)]
      exact linked.root mode' id rooted
  case rooted =>
    intro id node' found parent
    rw [nodes_addRoot] at found
    split at found
    · rename_i same
      exact ⟨mode, by rw [roots_addRoot, if_pos rfl, same]⟩
    · obtain ⟨mode', rooted⟩ := linked.rooted id node' found parent
      have other : mode' ≠ mode := by
        rintro rfl
        rw [absent] at rooted
        cases rooted
      exact ⟨mode', by rw [roots_addRoot, if_neg other]; exact rooted⟩
  case apart =>
    intro mode₁ mode₂ id first second
    rw [roots_addRoot] at first second
    split at first
    · cases first
      split at second
      · rename_i same same'
        rw [same, same']
      · exact absurd rfl (others second)
    · split at second
      · cases second
        exact absurd rfl (others first)
      · exact linked.apart mode₁ mode₂ id first second
  case edge =>
    intro above key id leads
    obtain ⟨node', found, parent⟩ := linked.edge above key id leads
    exact ⟨node', by rw [nodes_addRoot, if_neg (old found)]; exact found, parent⟩
  case parent =>
    intro id node' above key found parent
    rw [nodes_addRoot] at found
    split at found
    · cases found
      cases parent
    · obtain ⟨leads, stored, lower⟩ := linked.parent id node' above key found parent
      refine ⟨leads, ?_, lower⟩
      rw [nodes_addRoot]
      split
      · rfl
      · exact stored
  case kept =>
    intro id kept
    rw [nodes_addRoot]
    split
    · rfl
    · exact linked.kept id kept

theorem Linked.get?_addRoot (mode' : μ) (keys : List κ) :
    (table.addRoot mode).get? mode' keys = table.get? mode' keys := by
  have fresh := linked.fresh room
  have follows (id : NodeId) (key : κ) :
      (table.addRoot mode).follow? id key = table.follow? id key := rfl
  have walks := walk?_congr follows
  refine get?_of_fresh fresh linked ?_ ?_ ?_ ?_ mode' keys
  · intro mode' keys id found
    have other : mode' ≠ mode := by
      rintro rfl
      simp [find?, absent] at found
    unfold find? at found ⊢
    rw [roots_addRoot, if_neg other]
    simpa only [walks] using found
  · intro mode' keys id found
    unfold find? at found ⊢
    rw [roots_addRoot] at found
    split at found
    · -- no edge starts at the new root
      left
      cases keys with
      | nil => exact (Option.some.inj found).symm
      | cons key rest =>
          rw [Option.bind_some, walks, walk?, linked.follow?_of_none fresh] at found
          cases found
    · right
      simpa only [walks] using found
  · intro id differs
    rw [value?, nodes_addRoot, if_neg differs]
    rfl
  · rw [value?, nodes_addRoot, if_pos rfl]
    rfl

end Root

/-! ## A new node at the end of an edge -/

section Edge

variable {id : NodeId} {key : κ}

/-- With a new node behind another. -/
def addBehind (table : NodeTable μ κ ν) (id : NodeId) (key : κ) : NodeTable μ κ ν :=
  (table.addNode (some (id, key))).addEdge id key table.nextId

omit [DecidableEq μ] in
theorem extend_of_some {here : NodeTable μ κ ν × NodeId} {next : NodeId}
    (leads : here.1.follow? here.2 key = some next) : extend here key = (here.1, next) := by
  simp only [extend, leads]

omit [DecidableEq μ] in
theorem extend_of_none {here : NodeTable μ κ ν × NodeId}
    (absent : here.1.follow? here.2 key = none) :
    extend here key = (here.1.addBehind here.2 key, here.1.nextId) := by
  simp only [extend, absent, addBehind]

omit [DecidableEq μ] in
theorem get?_addBehind (table : NodeTable μ κ ν) (id : NodeId) (key : κ) (other : NodeId) :
    (table.addBehind id key).nodes.get? other =
      if other = table.nextId then some { parent := some (id, key) }
      else table.nodes.get? other :=
  table.get?_addNode (some (id, key)) other

omit [DecidableEq μ] in
theorem follow?_addBehind (table : NodeTable μ κ ν) (id : NodeId) (key : κ) (other : NodeId)
    (key' : κ) :
    (table.addBehind id key).follow? other key' =
      if other = id ∧ key' = key then some table.nextId else table.follow? other key' :=
  follow?_addEdge _ id key _ other key'

omit [DecidableEq μ] in
/-- The edges that were there lead where they led. -/
theorem follow?_addBehind_of_some (absent : table.follow? id key = none) {other next : NodeId}
    {key' : κ} (leads : table.follow? other key' = some next) :
    (table.addBehind id key).follow? other key' = some next := by
  rw [follow?_addBehind, if_neg]
  · exact leads
  · rintro ⟨rfl, rfl⟩
    rw [absent] at leads
    cases leads

theorem find?_addBehind_of_some (absent : table.follow? id key = none) {mode : μ} {keys : List κ}
    {other : NodeId} (found : table.find? mode keys = some other) :
    (table.addBehind id key).find? mode keys = some other := by
  obtain ⟨root, rooted, leads⟩ := Option.bind_eq_some_iff.mp found
  exact Option.bind_eq_some_iff.mpr
    ⟨root, rooted, walk?_mono (fun _ _ _ => follow?_addBehind_of_some absent) leads⟩

variable (linked : Linked table) (room : table.made < UInt64.size)
  (stored : (table.nodes.get? id).isSome = true) (absent : table.follow? id key = none)

include linked room stored absent

theorem Linked.addBehind : Linked (table.addBehind id key) := by
  have fresh := linked.fresh room
  have number : table.nextId.number.toNat = table.made := UInt64.toNat_ofNat_of_lt room
  have old {other : NodeId} (there : (table.nodes.get? other).isSome = true) :
      other ≠ table.nextId := by
    rintro rfl
    rw [fresh] at there
    cases there
  have keeps {other : NodeId} (there : (table.nodes.get? other).isSome = true) :
      ((table.addBehind id key).nodes.get? other).isSome = true := by
    rw [get?_addBehind, if_neg (old there)]
    exact there
  constructor
  case numbered =>
    intro other node found
    show other.number.toNat < table.made + 1
    rw [get?_addBehind] at found
    split at found
    · rename_i same
      rw [same, number]
      exact Nat.lt_succ_self _
    · exact Nat.lt_succ_of_lt (linked.numbered other node found)
  case root =>
    intro mode root rooted
    have found := linked.root mode root rooted
    rw [get?_addBehind, if_neg (old (by rw [found]; rfl))]
    exact found
  case rooted =>
    intro other node found parent
    rw [get?_addBehind] at found
    split at found
    · cases found
      cases parent
    · exact linked.rooted other node found parent
  case apart =>
    exact linked.apart
  case edge =>
    intro above key' other leads
    rw [follow?_addBehind] at leads
    split at leads
    · rename_i same
      obtain ⟨rfl, rfl⟩ := same
      cases leads
      exact ⟨_, by rw [get?_addBehind, if_pos rfl], rfl⟩
    · obtain ⟨node, found, parent⟩ := linked.edge above key' other leads
      exact ⟨node, by rw [get?_addBehind, if_neg (old (by rw [found]; rfl))]; exact found, parent⟩
  case parent =>
    intro other node above key' found parent
    rw [get?_addBehind] at found
    split at found
    · rename_i same
      cases found
      cases parent
      obtain ⟨node, found⟩ := Option.isSome_iff_exists.mp stored
      refine ⟨by rw [follow?_addBehind, if_pos ⟨rfl, rfl⟩, same], keeps stored, ?_⟩
      rw [same, number]
      exact linked.numbered _ node found
    · obtain ⟨leads, there, lower⟩ := linked.parent other node above key' found parent
      exact ⟨follow?_addBehind_of_some absent leads, keeps there, lower⟩
  case kept =>
    intro other kept
    apply keeps
    unfold NodeTable.addBehind addEdge at kept
    rw [Directory.get?_insert] at kept
    split at kept
    · rename_i same
      rw [same]
      exact stored
    · exact linked.kept other kept

theorem Linked.get?_addBehind (mode : μ) (keys : List κ) :
    (table.addBehind id key).get? mode keys = table.get? mode keys := by
  have fresh := linked.fresh room
  have differs : table.nextId ≠ id := by
    rintro rfl
    rw [fresh] at stored
    cases stored
  -- a way that uses the new edge ends there, since nothing starts at the new node
  have walks (keys : List κ) (other last : NodeId)
      (leads : (table.addBehind id key).walk? other keys = some last) :
      last = table.nextId ∨ table.walk? other keys = some last := by
    induction keys generalizing other with
    | nil => exact .inr leads
    | cons key' rest ih =>
        obtain ⟨next, first, leads⟩ := Option.bind_eq_some_iff.mp leads
        rw [follow?_addBehind] at first
        split at first
        · cases first
          cases rest with
          | nil => exact .inl (Option.some.inj leads).symm
          | cons key' rest =>
              rw [walk?, follow?_addBehind, if_neg (fun same => differs same.1),
                linked.follow?_of_none fresh] at leads
              cases leads
        · rw [walk?, first]
          exact ih next leads
  refine get?_of_fresh fresh linked (fun _ _ _ => find?_addBehind_of_some absent) ?_ ?_ ?_ mode
    keys
  · intro mode keys other found
    obtain ⟨root, rooted, leads⟩ := Option.bind_eq_some_iff.mp found
    exact (walks keys root other leads).imp_right fun leads =>
      Option.bind_eq_some_iff.mpr ⟨root, rooted, leads⟩
  · intro other differs
    rw [value?, NodeTable.get?_addBehind, if_neg differs]
    rfl
  · rw [value?, NodeTable.get?_addBehind, if_pos rfl]
    rfl

end Edge

/-! ## A sequence of keys -/

omit [DecidableEq κ] in
theorem made_rootOf (table : NodeTable μ κ ν) (mode : μ) :
    table.made ≤ (table.rootOf mode).1.made ∧ (table.rootOf mode).1.made ≤ table.made + 1 := by
  unfold rootOf
  split
  · exact ⟨Nat.le_refl _, Nat.le_succ _⟩
  · exact ⟨Nat.le_succ _, Nat.le_refl _⟩

omit [DecidableEq μ] in
theorem made_extend (here : NodeTable μ κ ν × NodeId) (key : κ) :
    here.1.made ≤ (extend here key).1.made ∧ (extend here key).1.made ≤ here.1.made + 1 := by
  unfold extend
  split
  · exact ⟨Nat.le_refl _, Nat.le_succ _⟩
  · exact ⟨Nat.le_succ _, Nat.le_refl _⟩

omit [DecidableEq μ] in
theorem made_foldl_extend (here : NodeTable μ κ ν × NodeId) (keys : List κ) :
    here.1.made ≤ (keys.foldl extend here).1.made ∧
      (keys.foldl extend here).1.made ≤ here.1.made + keys.length := by
  induction keys generalizing here with
  | nil => exact ⟨Nat.le_refl _, Nat.le_refl _⟩
  | cons key rest ih =>
      have first := made_extend here key
      have later := ih (extend here key)
      rw [List.foldl_cons, List.length_cons]
      omega

/-- The keys of a sequence were followed so far from the root of a mode, and made where there
were none; only the node that was reached may lead to nothing. -/
structure Followed (table : NodeTable μ κ ν) (mode : μ) (keys : List κ)
    (here : NodeTable μ κ ν × NodeId) : Prop where
  linked : Linked here.1
  leads : LeadsBut here.1 (some here.2)
  found : here.1.find? mode keys = some here.2
  /-- No value has changed. -/
  values : ∀ mode' keys', here.1.get? mode' keys' = table.get? mode' keys'
  rooted : ∀ mode', (here.1.roots.get? mode').isSome = true ↔
    mode' = mode ∨ (table.roots.get? mode').isSome = true

theorem Tidy.rootOf (tidy : Tidy table) (mode : μ)
    (room : (table.rootOf mode).1.made ≤ UInt64.size) :
    Followed table mode [] (table.rootOf mode) := by
  cases rooted : table.roots.get? mode with
  | some id =>
      rw [rootOf_of_some rooted]
      refine ⟨tidy.linked, ?_, (table.find?_nil mode).trans rooted, fun _ _ => rfl, ?_⟩
      · intro other node stored deep valued _
        exact tidy.leads other node stored deep valued (Option.some_ne_none other)
      · intro mode'
        refine ⟨.inr, ?_⟩
        rintro (rfl | there)
        · rw [rooted]
          rfl
        · exact there
  | none =>
      rw [rootOf_of_none rooted] at room ⊢
      refine ⟨tidy.linked.addRoot room rooted, ?_, ?_, tidy.linked.get?_addRoot room rooted, ?_⟩
      · intro other node stored deep valued differs
        rw [nodes_addRoot, if_neg fun same => differs (congrArg some same)] at stored
        exact tidy.leads other node stored deep valued (Option.some_ne_none other)
      · rw [find?_nil, roots_addRoot, if_pos rfl]
      · intro mode'
        rw [roots_addRoot]
        split <;> simp [*]

/-- One more key of the sequence. -/
theorem Followed.extend {mode : μ} {keys : List κ} {here : NodeTable μ κ ν × NodeId}
    (followed : Followed table mode keys here) (key : κ)
    (room : (NodeTable.extend here key).1.made ≤ UInt64.size) :
    Followed table mode (keys ++ [key]) (NodeTable.extend here key) := by
  cases leads : here.1.follow? here.2 key with
  | some next =>
      rw [extend_of_some leads]
      refine ⟨followed.linked, ?_, ?_, followed.values, followed.rooted⟩
      · intro id node stored deep valued _
        by_cases same : id = here.2
        · rw [same]
          exact hasEdges_of_follow leads
        · exact followed.leads id node stored deep valued fun equal => same (Option.some.inj equal)
      · rw [find?_concat, followed.found]
        exact leads
  | none =>
      rw [extend_of_none leads] at room ⊢
      have stored := followed.linked.stored followed.found
      refine ⟨followed.linked.addBehind room stored leads, ?_, ?_, ?_, followed.rooted⟩
      · intro id node stored' deep valued differs
        rw [get?_addBehind, if_neg fun same => differs (congrArg some same)] at stored'
        by_cases same : id = here.2
        · rw [same]
          exact hasEdges_of_follow ((follow?_addBehind ..).trans (if_pos ⟨rfl, rfl⟩))
        · obtain ⟨key', next, edge⟩ := (hasEdges_iff _ _).mp (followed.leads id node stored' deep
            valued fun equal => same (Option.some.inj equal))
          exact hasEdges_of_follow (follow?_addBehind_of_some leads edge)
      · rw [find?_concat, find?_addBehind_of_some leads followed.found, Option.bind_some,
          follow?_addBehind, if_pos ⟨rfl, rfl⟩]
      · intro mode' keys'
        rw [followed.linked.get?_addBehind room stored leads]
        exact followed.values mode' keys'

/-- All the keys that are left. -/
theorem Followed.foldl {mode : μ} {before keys : List κ} {here : NodeTable μ κ ν × NodeId}
    (followed : Followed table mode before here)
    (room : (keys.foldl NodeTable.extend here).1.made ≤ UInt64.size) :
    Followed table mode (before ++ keys) (keys.foldl NodeTable.extend here) := by
  induction keys generalizing before here with
  | nil => rwa [List.append_nil]
  | cons key rest ih =>
      have next := followed.extend key ((made_foldl_extend _ rest).1.trans room)
      have later := ih next room
      rwa [List.append_assoc] at later

/-! ## The value of a node -/

omit [DecidableEq μ] [DecidableEq κ] in
theorem value?_setValue {id : NodeId} (stored : (table.nodes.get? id).isSome = true)
    (value : Option ν) (other : NodeId) :
    (table.setValue id value).value? other = if other = id then value else table.value? other := by
  obtain ⟨node, found⟩ := Option.isSome_iff_exists.mp stored
  rw [value?, get?_setValue, found]
  split
  · rfl
  · rfl

omit [DecidableEq μ] in
theorem follow?_setValue (table : NodeTable μ κ ν) (id : NodeId) (value : Option ν)
    (other : NodeId) (key : κ) :
    (table.setValue id value).follow? other key = table.follow? other key := by
  rw [follow?, edges_setValue, ← follow?]

theorem find?_setValue (table : NodeTable μ κ ν) (id : NodeId) (value : Option ν) (mode : μ)
    (keys : List κ) : (table.setValue id value).find? mode keys = table.find? mode keys := by
  simp only [find?, roots_setValue, walk?_congr (table.follow?_setValue id value)]

/-- What has another value is the one sequence that leads to the node. -/
theorem Linked.get?_setValue (linked : Linked table) {mode : μ} {keys : List κ} {id : NodeId}
    (found : table.find? mode keys = some id) (value : Option ν) (mode' : μ) (keys' : List κ) :
    (table.setValue id value).get? mode' keys' =
      if mode' = mode ∧ keys' = keys then value else table.get? mode' keys' := by
  have stored := linked.stored found
  simp only [get?, find?_setValue]
  by_cases same : mode' = mode ∧ keys' = keys
  · rw [if_pos same, same.1, same.2, found, Option.bind_some, value?_setValue stored, if_pos rfl]
  · rw [if_neg same]
    cases found' : table.find? mode' keys' with
    | none => rfl
    | some other =>
        have differs : other ≠ id := by
          rintro rfl
          exact same (linked.find?_injective found' found)
        rw [Option.bind_some, Option.bind_some, value?_setValue stored, if_neg differs]

omit [DecidableEq μ] [DecidableEq κ] in
/-- A node keeps the edge that it names when its value changes. -/
theorem exists_of_get?_setValue {id other : NodeId} {value : Option ν} {node : TableNode κ ν}
    (stored : (table.setValue id value).nodes.get? other = some node) :
    ∃ old, table.nodes.get? other = some old ∧ old.parent = node.parent ∧
      (node.value = if other = id then value else old.value) := by
  rw [NodeTable.get?_setValue] at stored
  split at stored
  · rename_i same
    subst same
    obtain ⟨old, found, rfl⟩ := Option.map_eq_some_iff.mp stored
    exact ⟨old, found, rfl, (if_pos rfl).symm⟩
  · rename_i differs
    exact ⟨node, stored, rfl, (if_neg differs).symm⟩

omit [DecidableEq μ] [DecidableEq κ] in
theorem isSome_setValue (table : NodeTable μ κ ν) (id : NodeId) (value : Option ν)
    (other : NodeId) : ((table.setValue id value).nodes.get? other).isSome =
      (table.nodes.get? other).isSome := by
  rw [NodeTable.get?_setValue]
  split
  · rename_i same
    rw [same, Option.isSome_map]
  · rfl

/-- A node that is not a root may have any value. -/
theorem Linked.setValue (linked : Linked table) {id : NodeId} {value : Option ν}
    (deep : ∀ mode, table.roots.get? mode ≠ some id) : Linked (table.setValue id value) where
  numbered := by
    intro other node stored
    obtain ⟨old, found, _⟩ := exists_of_get?_setValue stored
    rw [made_setValue]
    exact linked.numbered other old found
  root := by
    intro mode other rooted
    rw [roots_setValue] at rooted
    rw [NodeTable.get?_setValue, if_neg]
    · exact linked.root mode other rooted
    · rintro rfl
      exact deep mode rooted
  rooted := by
    intro other node stored alone
    obtain ⟨old, found, same, _⟩ := exists_of_get?_setValue stored
    rw [roots_setValue]
    exact linked.rooted other old found (same.trans alone)
  apart := by
    rw [roots_setValue]
    exact linked.apart
  edge := by
    intro above key other leads
    rw [follow?_setValue] at leads
    obtain ⟨old, found, parent⟩ := linked.edge above key other leads
    obtain ⟨node, stored⟩ := Option.isSome_iff_exists.mp
      ((table.isSome_setValue id value other).trans (Option.isSome_iff_exists.mpr ⟨old, found⟩))
    obtain ⟨old', found', same, _⟩ := exists_of_get?_setValue stored
    rw [found] at found'
    cases found'
    exact ⟨node, stored, same.symm.trans parent⟩
  parent := by
    intro other node above key stored parent
    obtain ⟨old, found, same, _⟩ := exists_of_get?_setValue stored
    rw [follow?_setValue, isSome_setValue]
    exact linked.parent other old above key found (same.trans parent)
  kept := by
    intro other kept
    rw [edges_setValue] at kept
    rw [isSome_setValue]
    exact linked.kept other kept

omit [DecidableEq μ] in
/-- Once a node has a value, it may lead nowhere. -/
theorem LeadsBut.setValue {exempt : Option NodeId} {id : NodeId} {value : Option ν}
    {exempt' : Option NodeId} (leads : LeadsBut table exempt)
    (here : value = none → some id = exempt')
    (others : ∀ other, some other = exempt → other = id ∨ some other = exempt') :
    LeadsBut (table.setValue id value) exempt' := by
  intro other node stored deep valueless differs
  obtain ⟨old, found, same, valued⟩ := exists_of_get?_setValue stored
  rw [hasEdges_congr (table.follow?_setValue id value other)]
  by_cases changed : other = id
  · rw [if_pos changed, valueless] at valued
    exact absurd (changed ▸ here valued.symm) differs
  · rw [if_neg changed, valueless] at valued
    refine leads other old found (same ▸ deep) valued.symm fun equal => ?_
    exact (others other equal).elim changed differs

/-! ## Insertion -/

/-- An insertion makes at most a root, and a node for each key. -/
theorem made_replace (table : NodeTable μ κ ν) (mode : μ) (keys : List κ) (value : ν) :
    table.made ≤ (table.replace mode keys value).2.made ∧
      (table.replace mode keys value).2.made ≤ table.made + (keys.length + 1) := by
  unfold replace
  split
  · exact ⟨Nat.le_refl _, Nat.le_add_right _ _⟩
  · have root := table.made_rootOf mode
    have ends := made_foldl_extend (table.rootOf mode) keys
    rw [made_setValue]
    omega

theorem Linked.not_root (linked : Linked table) {mode : μ} {keys : List κ} {id : NodeId}
    (found : table.find? mode keys = some id) (typed : keys ≠ []) (mode' : μ) :
    table.roots.get? mode' ≠ some id := fun rooted =>
  typed (linked.find?_injective ((table.find?_nil mode').trans rooted) found).2.symm

/-- After an insertion the sequence has the new value, no other has changed, and the answer is
the old value. -/
theorem Tidy.replace (tidy : Tidy table) (mode : μ) {keys : List κ} (typed : keys ≠ []) (value : ν)
    (room : (table.replace mode keys value).2.made ≤ UInt64.size) :
    Tidy (table.replace mode keys value).2 ∧
      (table.replace mode keys value).1 = table.get? mode keys ∧
      (∀ mode' keys', (table.replace mode keys value).2.get? mode' keys' =
        if mode' = mode ∧ keys' = keys then some value else table.get? mode' keys') ∧
      ∀ mode', ((table.replace mode keys value).2.roots.get? mode').isSome = true ↔
        mode' = mode ∨ (table.roots.get? mode').isSome = true := by
  have parts : table.replace mode keys value =
      ((keys.foldl extend (table.rootOf mode)).1.value? (keys.foldl extend (table.rootOf mode)).2,
        (keys.foldl extend (table.rootOf mode)).1.setValue
          (keys.foldl extend (table.rootOf mode)).2 (some value)) :=
    if_neg (by simpa using typed)
  rw [parts] at room ⊢
  rw [made_setValue] at room
  have start := tidy.rootOf mode ((made_foldl_extend _ keys).1.trans room)
  have ends := start.foldl room
  rw [List.nil_append] at ends
  generalize keys.foldl extend (table.rootOf mode) = here at ends
  refine ⟨⟨ends.linked.setValue (ends.linked.not_root ends.found typed), ?_⟩, ?_, ?_, ?_⟩
  · exact ends.leads.setValue (fun nothing => by cases nothing)
      fun other same => .inl (Option.some.inj same)
  · rw [← ends.values, get?, ends.found, Option.bind_some]
  · intro mode' keys'
    rw [ends.linked.get?_setValue ends.found, ends.values]
  · intro mode'
    rw [roots_setValue]
    exact ends.rooted mode'

end ModalInput.NodeTable
