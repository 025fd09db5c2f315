import Landform.Proofs.Decimal.Numeral
import Landform.Proofs.Evaluation.Nesting
import Landform.Proofs.Script.Emission

/-!
# How deep emission nests

The traced emission keeps one list of what is on the way, with the texts of ports and of blocks side
by side, and has a budget that falls with every nested call. Blocks nest blocks and expressions,
expressions nest expressions only, so that the blocks stay behind the ports on the way; and no port
has the text of a block. Hence emission, which keeps ports and blocks apart, gives the same.

1. `inquiry`, `rule_eq_run`: the rules of emission as inquiries.
2. `tracedExpr`, `tracedBlock`: the traced recursion.
3. `tracedExpr_gives`, `tracedBlock_gives`: the budget, and the answer.
4. `tracedExpr_orderly`, `tracedBlock_orderly`: what is on the way, and what is met again.
5. `Graph.Assembled.interpreters_end`: evaluation and emission of any nodes and connections.
-/

namespace Landform

namespace Traced

variable {α β : Type}

/-- A key that is met again on the way ends the trace with its report. -/
def Reports (t : Traced α) : Prop :=
  ∀ call ∈ t.calls, call.key.text ∈ call.way → t.result = .error (.failed call.key.cycle)

theorem Reports.pure (a : α) : Reports (pure a) := fun _ none => absurd none List.not_mem_nil

theorem Reports.halt (why : Halt) : Reports (halt why : Traced α) :=
  fun _ none => absurd none List.not_mem_nil

theorem Reports.ofExcept (answer : Except Error α) : Reports (ofExcept answer) := by
  cases answer with
  | ok a => exact .pure a
  | error cause => exact .halt _

/-- A call whose key is not on the way adds nothing to report. -/
theorem Reports.enter {key : Key} {way : List String} {t : Traced α} (fresh : key.text ∉ way)
    (reports : t.Reports) : (t.enter key way).Reports := by
  rintro call (_ | ⟨_, listed⟩) met
  · exact absurd met fresh
  · exact reports call listed met

/-- A call that is met again stops at once. -/
theorem Reports.cycle (key : Key) (way : List String) :
    ((Traced.halt (.failed key.cycle) : Traced α).enter key way).Reports := by
  rintro call (_ | ⟨_, ⟨⟩⟩) _
  rfl

theorem Reports.bind {t : Traced α} {f : α → Traced β} (first : t.Reports)
    (next : ∀ a, (f a).Reports) : (t >>= f).Reports := by
  rcases bind_cases t f with ⟨a, found, step⟩ | ⟨why, found, step⟩ <;> rw [step] <;>
    intro call listed met
  · rcases List.mem_append.mp listed with before | after
    · -- the first part ended well, so it met nothing again
      have failed := first call before met
      rw [found] at failed
      cases failed
    · exact next a call after met
  · have failed := first call listed met
    rw [found] at failed
    cases failed
    rfl

/-- A trace whose ways hold keys of a list, each once, and which ends with the report of a key that
is met again. -/
structure Orderly (keys : List String) (t : Traced α) : Prop where
  within : t.Within keys
  reports : t.Reports

namespace Orderly

variable {keys : List String}

theorem pure (a : α) : Orderly keys (pure a) :=
  ⟨.pure a, .pure a⟩

theorem halt (why : Halt) : Orderly keys (halt why : Traced α) :=
  ⟨.halt why, .halt why⟩

theorem ofExcept (answer : Except Error α) : Orderly keys (ofExcept answer) :=
  ⟨.ofExcept answer, .ofExcept answer⟩

theorem enter {key : Key} {way : List String} {t : Traced α} (fresh : key.text ∉ way)
    (nodup : way.Nodup) (known : way ⊆ keys) (orderly : t.Orderly keys) :
    (t.enter key way).Orderly keys :=
  ⟨.enter nodup known orderly.within, .enter fresh orderly.reports⟩

theorem cycle (key : Key) {way : List String} (nodup : way.Nodup) (known : way ⊆ keys) :
    ((Traced.halt (.failed key.cycle) : Traced α).enter key way).Orderly keys :=
  ⟨.enter nodup known (.halt _), .cycle key way⟩

theorem bind {t : Traced α} {f : α → Traced β} (first : t.Orderly keys)
    (next : ∀ a, (f a).Orderly keys) : (t >>= f).Orderly keys :=
  ⟨.bind first.within fun a => (next a).within, .bind first.reports fun a => (next a).reports⟩

theorem run {input : String → Traced α} (each : ∀ role, (input role).Orderly keys)
    (q : Inquiry α β) : (q.run input).Orderly keys :=
  Inquiry.holds_run (P := Orderly keys) Orderly.pure Orderly.bind each q

/-- What the computation without a budget answers when a key is met again. -/
theorem answer_eq {t : Traced α} {answer : Except Error α} (orderly : t.Orderly keys)
    (gives : t.Gives answer) :
    ∀ call ∈ t.calls, call.key.text ∈ call.way → answer = .error call.key.cycle := by
  intro call listed met
  have failed := gives.symm.trans (orderly.reports call listed met)
  cases answer <;> cases failed
  rfl

end Orderly

end Traced

/-! ## Keys -/

theorem Key.text_block_injective {m n : Int} (same : (Key.block m).text = (Key.block n).text) :
    m = n := by
  have texts := congrArg String.toList same
  simp only [Key.text, String.toList_append] at texts
  exact Decimal.integerText_injective (String.toList_inj.mp (List.append_cancel_left texts))

/-- No port is called like a block: its name starts with the id of a node. -/
theorem portId_ne_block (m n : Int) (role : String) : portId m role ≠ (Key.block n).text := by
  intro same
  have texts := congrArg String.toList same
  simp only [portId, Key.text, String.toList_append] at texts
  cases letters : (Decimal.integerText m).toList with
  | nil =>
    rw [letters] at texts
    exact absurd (List.cons.inj texts).1 (by decide)
  | cons c rest =>
    rw [letters] at texts
    have first : c = 'b' := (List.cons.inj texts).1
    subst first
    have member : 'b' ∈ (Decimal.integerText m).toList := by simp [letters]
    rcases Decimal.mem_integerText member with minus | digit
    · exact absurd minus (by decide)
    · exact absurd digit (by decide)

namespace Script

open Lua

/-! ## 1. Rules as inquiries -/

/-- What a rule of emission asks for, and its result. -/
def inquiry (n : Node) (role : Option String) (content : Expr) :
    Inquiry Expr (Except Error Expr) :=
  match n.params with
  | .add => .ask "in1" fun a => .ask "in2" fun b => .done (.ok (.group (.binary .add a b)))
  | .subtract => .ask "in1" fun a => .ask "in2" fun b =>
    .done (.ok (.group (.binary .subtract a b)))
  | .multiply => .ask "in1" fun a => .ask "in2" fun b =>
    .done (.ok (.group (.binary .multiply a b)))
  | .abs => .ask "in" fun a => .done (.ok (.call .abs [a]))
  | .lerp power => .ask "in1" fun a => .ask "in2" fun b => .ask "factor" fun t =>
    .done (.ok (if power == 1.0 then .call .lerp [a, b, t]
      else .call .lerp ([a, b, t] ++ [.number power])))
  | .coserp => .ask "in1" fun a => .ask "in2" fun b => .ask "factor" fun t =>
    .done (.ok (.call .coserp [a, b, t]))
  | .gaussian bell => .ask "x" fun x => .ask "y" fun y => .ask "z" fun z =>
    .done (.ok (.call .gaussian [x, y, z, .number bell.centerX, .number bell.centerY,
      .number bell.centerZ, .number bell.spread]))
  | .remap b => .ask "in" fun a =>
    .done (.ok (.call .remap [a, .number b.inMin, .number b.inMax, .number b.outMin,
      .number b.outMax]))
  | .distance p => .ask "x" fun x => .ask "y" fun y => .ask "z" fun z =>
    .done (.ok (.call .sqrt [.binary .add (.binary .add (squaredDifference x p.x)
      (squaredDifference y p.y)) (squaredDifference z p.z)]))
  | .noise2d _ | .noise3d _ => .done (.ok (.noise n.id))
  | .mandelbrot view => .done (.ok (viewExpr view))
  | .position => .done (match role.bind coordinate? with
    | some axis => .ok (.coordinate axis)
    | none => .error .missingPart)
  | .terrainType _ => .done (.ok content)
  | .compare _ => .done (.ok (.integer 0))
  | .terrainOutput => .ask "in" fun e => .done (.ok e)

/-- A rule gives what its inquiry gives. -/
theorem rule_eq_run (n : Node) (role : Option String) (content : Expr)
    (input : String → Except Error Expr) :
    rule n role content input = (inquiry n role content).run input >>= id := by
  unfold rule inquiry
  cases n.params with
  | add | subtract | multiply | abs | coserp | gaussian _ | remap _ | distance _ =>
    simp only [Inquiry.run, bind_assoc, pure_bind]
    rfl
  | lerp power =>
    simp only [Inquiry.run, bind_assoc, pure_bind]
    split <;> rfl
  | position =>
    simp only [Inquiry.run, pure_bind]
    cases role.bind coordinate? <;> rfl
  | terrainOutput =>
    simp only [Inquiry.run, bind_assoc, pure_bind]
    cases input "in" <;> rfl
  | noise2d _ | noise3d _ | mandelbrot _ | terrainType _ | compare _ => rfl

/-! ## 2. The traced recursion -/

/-- The expression of a port with the calls that it takes. The budget falls with every nested
call. -/
def tracedExpr (w : Wiring) (contents : Contents) :
    (budget : Nat) → (way : List String) → (id : String) → Traced Expr
  | 0, _, _ => .halt .exhausted
  | budget + 1, way, id =>
    if way.contains id then .enter (.port id) way (.halt (.failed (Key.port id).cycle))
    else .enter (.port id) way <| match w.find? id with
      | none => .halt (.failed .missingPart)
      | some (node, port) => do
        let inquiry := inquiry node (some port.role) (.name (contents node))
        let answer ← inquiry.run fun role =>
          match w.incoming? (portId node.id role) with
          | none => pure (.integer 0)
          | some c => tracedExpr w contents budget (id :: way) c.source
        .ofExcept answer

/-- The expression of an input of a node with the calls that it takes. -/
def tracedInput (w : Wiring) (contents : Contents) (budget : Nat) (way : List String) (n : Node)
    (role : String) : Traced Expr :=
  match w.incoming? (portId n.id role) with
  | none => pure (.integer 0)
  | some c => tracedExpr w contents budget way c.source

/-- The decision of a node with the calls that it takes. The expressions of its inputs and the
blocks of its branches are nested calls. -/
def tracedBlock (w : Wiring) (contents : Contents) :
    (budget : Nat) → (way : List String) → (id : Int) → Traced Decision
  | 0, _, _ => .halt .exhausted
  | budget + 1, way, id =>
    let inner := (Key.block id).text :: way
    if way.contains (Key.block id).text then
      .enter (.block id) way (.halt (.failed (Key.block id).cycle))
    else .enter (.block id) way <| match ownerOf? w id with
      | none => .halt (.failed .missingPart)
      | some (node, _) =>
        match node.params with
        | .compare test => do
          let left ← tracedInput w contents budget inner node "in1"
          let right ← tracedInput w contents budget inner node "in2"
          let branch (role : String) (fallback : Float) : Traced Decision :=
            match (w.incoming? (portId id role)).bind fun c => w.owner? c.source with
            | none => pure (.assign (.number fallback))
            | some source => tracedBlock w contents budget inner source.id
          let ifTrue ← branch "useTrue" test.useTrue
          let ifFalse ← branch "useFalse" test.useFalse
          return .choose id left test.operator right ifTrue ifFalse
        | _ => do
          let role := node.kind.outputs.head?.map (·.role)
          let inquiry := inquiry node role (.name (contents node))
          let answer ← inquiry.run (tracedInput w contents budget inner node)
          return .assign (← .ofExcept answer)

/-! ## 3. Budgets and answers -/

section Answers

variable {g : Graph} (contents : Contents)

theorem source_mem_latest {id : String} {c : Connection}
    (incoming : g.wiring.incoming? id = some c) : c ∈ g.wiring.latest :=
  List.mem_of_find?_eq_some incoming

/-- A budget of more than the number of ports off the way is not spent by an expression. Blocks
behind the ports on the way change nothing, if no source of a connection is called like them. -/
theorem tracedExpr_gives {blocks : List String} (clear : ∀ c ∈ g.wiring.latest, c.source ∉ blocks)
    (budget : Nat) (visiting : List String) (id : String) (apart : id ∉ blocks)
    (room : portsLeft g.wiring visiting < budget) :
    (tracedExpr g.wiring contents budget (visiting ++ blocks) id).Gives
      (portExpr g.wiring contents visiting id) := by
  induction budget generalizing visiting id with
  | zero => exact absurd room (Nat.not_lt_zero _)
  | succ budget ih =>
    unfold tracedExpr
    by_cases met : id ∈ visiting
    · rw [if_pos (by simp [met]), portExpr_met contents met]
      exact .failed _
    · rw [if_neg (by simp [met, apart])]
      refine .enter ?_
      cases found : g.wiring.find? id with
      | none =>
        rw [portExpr_unknown contents met found]
        exact .failed _
      | some entry =>
        obtain ⟨n, p⟩ := entry
        rw [portExpr_found contents met found, rule_eq_run]
        have less := portsLeft_cons_lt found (by simpa using met)
        refine .bind (.run (fun role => ?_) _) .ofExcept
        cases incoming : g.wiring.incoming? (portId n.id role) with
        | none => exact .pure _
        | some c =>
          have later := clear c (source_mem_latest incoming)
          exact ih (id :: visiting) c.source later (by omega)

variable (clear : ∀ c ∈ g.wiring.latest, ∀ m, c.source ≠ (Key.block m).text)

include clear

/-- An input in a block starts with no port on the way, so that it has room for all of them. -/
theorem tracedInput_gives (budget : Nat) (blocks : List Int) (n : Node) (role : String)
    (room : g.wiring.ports.length < budget) :
    (tracedInput g.wiring contents budget (blocks.map fun m => (Key.block m).text) n role).Gives
      (inputExpr g.wiring contents n role) := by
  have apart : ∀ c ∈ g.wiring.latest, c.source ∉ blocks.map fun m => (Key.block m).text := by
    intro c listed member
    obtain ⟨m, _, same⟩ := List.mem_map.mp member
    exact clear c listed m same.symm
  unfold tracedInput inputExpr
  cases incoming : g.wiring.incoming? (portId n.id role) with
  | none => exact .pure _
  | some c =>
    have start := apart c (source_mem_latest incoming)
    exact tracedExpr_gives contents apart budget [] c.source start
      (Nat.lt_of_le_of_lt List.countP_le_length room)

/-- A budget of more than the number of ports whose nodes are off the way, and again the number of
all ports, is not spent by a block. -/
theorem tracedBlock_gives (budget : Nat) (visiting : List Int) (id : Int)
    (room : nodesLeft g.wiring visiting + g.wiring.ports.length < budget) :
    (tracedBlock g.wiring contents budget (visiting.map fun m => (Key.block m).text) id).Gives
      (decision g.wiring contents visiting id) := by
  induction budget generalizing visiting id with
  | zero => exact absurd room (Nat.not_lt_zero _)
  | succ budget ih =>
    have same : (Key.block id).text ∈ visiting.map (fun m => (Key.block m).text) ↔
        id ∈ visiting := List.mem_map_of_injective fun _ _ => Key.text_block_injective
    unfold tracedBlock
    by_cases met : id ∈ visiting
    · rw [decision_met contents met]
      dsimp only
      rw [if_pos (by simpa using same.mpr met)]
      exact .failed _
    · dsimp only
      rw [if_neg (by simpa using fun member => met (same.mp member))]
      refine .enter ?_
      cases found : ownerOf? g.wiring id with
      | none =>
        rw [decision_unknown contents met found]
        exact .failed _
      | some entry =>
        obtain ⟨n, p⟩ := entry
        have named : n.id = id := by simpa using List.find?_some found
        subst named
        have less := nodesLeft_cons_lt found (by simpa using met)
        have inputs := fun role =>
          tracedInput_gives contents clear budget (n.id :: visiting) n role (by omega)
        have branch (role : String) (fallback : Float) :
            (match (g.wiring.incoming? (portId n.id role)).bind fun c =>
                g.wiring.owner? c.source with
              | none => pure (.assign (.number fallback))
              | some source => tracedBlock g.wiring contents budget
                ((n.id :: visiting).map fun m => (Key.block m).text)
                source.id : Traced Decision).Gives
              (branchOf g contents (n.id :: visiting) n role fallback) := by
          unfold branchOf
          cases (g.wiring.incoming? (portId n.id role)).bind fun c => g.wiring.owner? c.source with
          | none => exact .pure _
          | some source => exact ih (n.id :: visiting) _ (by omega)
        dsimp only
        split
        · next test params =>
          rw [decision_found_compare contents met found params]
          exact .bind (inputs _) fun left => .bind (inputs _) fun right =>
            .bind (branch _ _) fun ifTrue => .bind (branch _ _) fun ifFalse => .pure _
        · next other =>
          have noComparison : n.kind ≠ .compare := fun compares =>
            have ⟨test, params⟩ := compare_of_kind compares
            other test params
          rw [decision_found_other contents met found noComparison, nodeExpr, rule_eq_run,
            bind_assoc]
          exact .bind (.run inputs _) fun answer => .bind (.ofExcept answer) fun e => .pure _

end Answers

/-! ## 4. What is on the way -/

section Ways

variable {w : Wiring} (contents : Contents) {keys : List String} (ports : w.portIds ⊆ keys)

/-- The texts of the blocks of the nodes. -/
def blockTexts (w : Wiring) : List String :=
  w.ports.map fun entry => (Key.block entry.1.id).text

include ports

theorem tracedExpr_orderly (budget : Nat) (way : List String) (id : String) (nodup : way.Nodup)
    (known : way ⊆ keys) : (tracedExpr w contents budget way id).Orderly keys := by
  induction budget generalizing way id with
  | zero => exact .halt _
  | succ budget ih =>
    unfold tracedExpr
    split
    · exact .cycle (.port id) nodup known
    · next fresh =>
      have apart : id ∉ way := by simpa using fresh
      refine .enter apart nodup known ?_
      cases found : w.find? id with
      | none => exact .halt _
      | some entry =>
        have nodup' : (id :: way).Nodup := List.nodup_cons.mpr ⟨apart, nodup⟩
        have known' : id :: way ⊆ keys :=
          List.cons_subset.mpr ⟨ports (Wiring.mem_portIds_of_find? found), known⟩
        refine .bind (.run (fun role => ?_) _) .ofExcept
        split
        · exact .pure _
        · exact ih _ _ nodup' known'

theorem tracedInput_orderly (budget : Nat) (way : List String) (n : Node) (role : String)
    (nodup : way.Nodup) (known : way ⊆ keys) :
    (tracedInput w contents budget way n role).Orderly keys := by
  unfold tracedInput
  split
  · exact .pure _
  · exact tracedExpr_orderly contents ports budget way _ nodup known

theorem tracedBlock_orderly (blocks : blockTexts w ⊆ keys) (budget : Nat) (way : List String)
    (id : Int) (nodup : way.Nodup) (known : way ⊆ keys) :
    (tracedBlock w contents budget way id).Orderly keys := by
  induction budget generalizing way id with
  | zero => exact .halt _
  | succ budget ih =>
    unfold tracedBlock
    dsimp only
    split
    · exact .cycle (.block id) nodup known
    · next fresh =>
      have apart : (Key.block id).text ∉ way := by simpa using fresh
      refine .enter apart nodup known ?_
      cases found : ownerOf? w id with
      | none => exact .halt _
      | some entry =>
        obtain ⟨n, p⟩ := entry
        have named : n.id = id := by simpa using List.find?_some found
        have own : (Key.block id).text ∈ blockTexts w :=
          named ▸ List.mem_map_of_mem (List.mem_of_find?_eq_some found)
        have nodup' : ((Key.block id).text :: way).Nodup := List.nodup_cons.mpr ⟨apart, nodup⟩
        have known' : (Key.block id).text :: way ⊆ keys :=
          List.cons_subset.mpr ⟨blocks own, known⟩
        have inputs := fun role =>
          tracedInput_orderly contents ports budget _ n role nodup' known'
        have branch (role : String) (fallback : Float) :
            (match (w.incoming? (portId id role)).bind fun c => w.owner? c.source with
              | none => pure (.assign (.number fallback))
              | some source => tracedBlock w contents budget ((Key.block id).text :: way)
                source.id : Traced Decision).Orderly keys := by
          split
          · exact .pure _
          · exact ih _ _ nodup' known'
        dsimp only
        split
        · exact .bind (inputs _) fun left => .bind (inputs _) fun right =>
            .bind (branch _ _) fun ifTrue => .bind (branch _ _) fun ifFalse => .pure _
        · exact .bind (.run inputs _) fun answer => .bind (.ofExcept answer) fun e => .pure _

end Ways

end Script

/-! ## 5. Any nodes and connections -/

namespace Graph

/-- A graph put together from nodes and connections that start at their ports, with no check of
what the connections join: cycles, several connections into one input, and connections between ports
of different kinds or of the same direction are all there can be. -/
structure Assembled (g : Graph) : Prop where
  tables_eq : g.tables = .of g.nodes g.connections
  sources_known : ∀ c ∈ g.connections, ∃ n ∈ g.nodes, ∃ p ∈ n.ports, p.id = c.source

theorem Assembled.source_ne_block {g : Graph} (assembled : g.Assembled) :
    ∀ c ∈ g.wiring.latest, ∀ m, c.source ≠ (Key.block m).text := by
  intro c listed m
  have latest : g.wiring.latest = g.connections.reverse := by
    rw [wiring, assembled.tables_eq]
    rfl
  rw [latest, List.mem_reverse] at listed
  obtain ⟨n, _, p, port, same⟩ := assembled.sources_known c listed
  rw [← same, Node.id_of_mem_ports port]
  exact portId_ne_block n.id m p.role

open Script

/-- On a graph of any nodes and connections, evaluation of any port at any point with any limit and
emission of any port end with a budget of one more than the number of ports, emission of the block
of any node with one more than twice that number, and the traced recursions give what evaluation and
emission give. On the way to each call there are ports or blocks of the graph, each once, and so no
more than the budget has room for. A call of emission that meets a port or a block again ends all
with the report of a cycle. -/
theorem Assembled.interpreters_end {g : Graph} (assembled : g.Assembled) :
    (∀ (limit : DepthLimit) (point : Point) (id : String),
      let t := g.wiring.tracedSignal limit point (g.wiring.ports.length + 1) [] 0 id
      t.Gives (.ok (g.portSignal limit id point)) ∧
      ∀ call ∈ t.calls, call.way.Nodup ∧ call.way ⊆ g.wiring.portIds ∧
        call.way.length ≤ g.wiring.ports.length) ∧
    (∀ (contents : Contents) (id : String),
      let t := tracedExpr g.wiring contents (g.wiring.ports.length + 1) [] id
      t.Gives (portExpr g.wiring contents [] id) ∧
      (∀ call ∈ t.calls, call.way.Nodup ∧ call.way ⊆ g.wiring.portIds ∧
        call.way.length ≤ g.wiring.ports.length) ∧
      ∀ call ∈ t.calls, call.key.text ∈ call.way →
        portExpr g.wiring contents [] id = .error call.key.cycle) ∧
    ∀ (contents : Contents) (id : Int),
      let t := tracedBlock g.wiring contents (2 * g.wiring.ports.length + 1) [] id
      t.Gives (decision g.wiring contents [] id) ∧
      (∀ call ∈ t.calls, call.way.Nodup ∧ call.way ⊆ g.wiring.portIds ++ blockTexts g.wiring ∧
        call.way.length ≤ 2 * g.wiring.ports.length) ∧
      ∀ call ∈ t.calls, call.key.text ∈ call.way →
        decision g.wiring contents [] id = .error call.key.cycle := by
  have portIds_length : g.wiring.portIds.length = g.wiring.ports.length := List.length_map _
  have keys_length : (g.wiring.portIds ++ blockTexts g.wiring).length =
      2 * g.wiring.ports.length := by
    rw [List.length_append, portIds_length, blockTexts, List.length_map, Nat.two_mul]
  refine ⟨fun limit point id => ⟨?_, ?_⟩, fun contents id => ?_, fun contents id => ?_⟩
  · exact traced_gives g limit point _ [] 0 id (Nat.lt_succ_of_le List.countP_le_length)
  · rw [← portIds_length]
    exact (traced_within g limit point _ [] 0 id List.nodup_nil (List.nil_subset _)).length_le
  · have gives := tracedExpr_gives (g := g) contents (fun _ _ => List.not_mem_nil)
      (g.wiring.ports.length + 1) [] id List.not_mem_nil (Nat.lt_succ_of_le List.countP_le_length)
    have orderly := tracedExpr_orderly contents (List.Subset.refl g.wiring.portIds)
      (g.wiring.ports.length + 1) [] id List.nodup_nil (List.nil_subset _)
    rw [← portIds_length] at gives orderly ⊢
    exact ⟨gives, orderly.within.length_le, orderly.answer_eq gives⟩
  · have gives := tracedBlock_gives contents assembled.source_ne_block
      (2 * g.wiring.ports.length + 1) [] id (by
        have bound : nodesLeft g.wiring [] ≤ g.wiring.ports.length := List.countP_le_length
        omega)
    have orderly := tracedBlock_orderly (w := g.wiring) contents (List.subset_append_left _ _)
      (List.subset_append_right _ _) (2 * g.wiring.ports.length + 1) [] id List.nodup_nil
      (List.nil_subset _)
    rw [← keys_length] at gives orderly ⊢
    exact ⟨gives, orderly.within.length_le, orderly.answer_eq gives⟩

/-- A sum that feeds itself and takes terrain for a number, and a comparison that is its own
branch. -/
def tangle : Graph :=
  let nodes : List Node := [⟨1, .add, 0, 0, []⟩, ⟨2, Kind.compare.defaults 0, 0, 0, []⟩]
  let connections : List Connection :=
    [⟨"1_out", "1_in1"⟩, ⟨"2_out", "1_in2"⟩, ⟨"2_out", "2_useTrue"⟩]
  { empty 7 with nodes, connections, tables := .of nodes connections }

theorem tangle_assembled : tangle.Assembled where
  tables_eq := rfl
  sources_known := by decide +kernel

/-- Both cycles are reported, and evaluation ends on the ports behind them. -/
theorem tangle_interpreters_end :
    portExpr tangle.wiring (fun _ => "stone") [] "1_out" = .error (.cycleThroughPort "1_out") ∧
    decision tangle.wiring (fun _ => "stone") [] 2 = .error (.cycleThroughNode 2) ∧
    ∀ limit point id, (tangle.wiring.tracedSignal limit point 9 [] 0 id).Gives
      (.ok (tangle.portSignal limit id point)) := by
  obtain ⟨signals, exprs, blocks⟩ := tangle_assembled.interpreters_end
  have ports : tangle.wiring.ports.length = 8 := by decide +kernel
  rw [ports] at signals exprs blocks
  refine ⟨?_, ?_, fun limit point id => (signals limit point id).1⟩
  · exact (exprs (fun _ => "stone") "1_out").2.2 ⟨.port "1_out", ["1_out"]⟩ (by decide +kernel)
      (by decide +kernel)
  · exact (blocks (fun _ => "stone") 2).2.2 ⟨.block 2, ["block:2"]⟩ (by decide +kernel)
      (by decide +kernel)

end Graph

end Landform
