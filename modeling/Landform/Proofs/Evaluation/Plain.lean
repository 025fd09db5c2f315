import Landform.Evaluation.Evaluate
import Landform.Proofs.Evaluation.Rule
import Landform.Proofs.Graph.Order
import Landform.Proofs.Graph.States

/-!
# Evaluation without guards

`Graph.plainSignal` is the signal of a port by recursion along the connections, with neither a list
of ports on the way nor a count of the connections followed. It needs a sound graph, in which every
port ranks above the ports behind it.

On such a graph the ports on the way all rank above the port that is asked for, so that none of
them is met again, also where two inputs share what feeds them. So the guarded evaluation agrees
with the plain one as soon as the limit admits every chain of connections behind the port.

1. `plainSignal_output`, `plainSignal_connected`, `plainSignal_open`: the plain recursion.
2. `guarded_visiting`: the ports on the way do not matter.
3. `portSignal_target`: a connection costs one of the limit, a node costs nothing.
4. `portSignal_eq_plainSignal`: the guarded evaluation.
-/

namespace Landform

namespace DepthLimit

/-- The limit behind one further connection. -/
def behind (limit : DepthLimit) : DepthLimit :=
  limit.map (· - 1)

theorem isExceeded_behind (limit : DepthLimit) (depth : Nat) :
    limit.behind.isExceeded depth = limit.isExceeded (depth + 1) := by
  cases limit with
  | none => rfl
  | some greatest =>
    simp only [behind, Option.map_some, isExceeded, decide_eq_decide]
    omega

theorem isExceeded_succ (limit : DepthLimit) {depth : Nat}
    (exceeded : limit.isExceeded depth = true) : limit.isExceeded (depth + 1) = true := by
  cases limit with
  | none => cases exceeded
  | some greatest =>
    simp only [isExceeded, decide_eq_true_eq] at exceeded ⊢
    omega

end DepthLimit

namespace Graph

/-! ## 1. The plain recursion -/

theorem Sound.rank_lt_of_found {g : Graph} (sound : g.Sound) {id : String} {n : Node} {p q : Port}
    {role : String} (found : g.wiring.find? id = some (n, p)) (output : p.isOutput = true)
    (asked : n.input? role = some q) : g.rank q.id < g.rank id := by
  obtain ⟨member, port, rfl⟩ := sound.find?_iff.mp found
  refine sound.rank_input_lt member ?_ (List.mem_of_find?_eq_some asked)
  exact (Node.mem_outputs_iff port).mpr (by simpa [Port.isOutput] using output)

theorem Sound.rank_lt_of_incoming {g : Graph} (sound : g.Sound) {id : String} {c : Connection}
    (incoming : g.wiring.incoming? id = some c) : g.rank c.source < g.rank id := by
  obtain ⟨member, rfl⟩ := sound.incoming?_iff.mp incoming
  exact sound.rank_source_lt member

/-- The signal of a port by recursion along the connections. An output has what the rule of its
node gives on the signals of the inputs, or the default of its kind when the rule fails; a
connected input has the signal of its source, an open one the default of its kind. -/
def plainSignal (g : Graph) (sound : g.Sound) (point : Point) (id : String) : Signal :=
  match _found : g.wiring.find? id with
  | none => .number 0
  | some (node, port) =>
    if _output : port.isOutput then
      let surroundings : Surroundings :=
        { point := point
          input := fun role =>
            match _asked : node.input? role with
            | some p => plainSignal g sound point p.id
            | none => .number 0
          isConnected := g.wiring.isConnected node }
      (node.params.rule port.role surroundings).getD port.kind.default
    else
      match _incoming : g.wiring.incoming? id with
      | some c => plainSignal g sound point c.source
      | none => port.kind.default
termination_by g.rank id
decreasing_by
  · exact sound.rank_lt_of_found _found _output _asked
  · exact sound.rank_lt_of_incoming _incoming

section Plain

variable {g : Graph} (sound : g.Sound) (point : Point)

theorem plainSignal_unknown {id : String} (unknown : g.wiring.find? id = none) :
    g.plainSignal sound point id = .number 0 := by
  rw [plainSignal]
  split
  · rfl
  · next found =>
    rw [unknown] at found
    cases found

/-- The plain recursion at a port of the graph. -/
theorem plainSignal_eq {id : String} {n : Node} {p : Port}
    (known : g.wiring.find? id = some (n, p)) :
    g.plainSignal sound point id =
      if p.isOutput then
        (n.params.rule p.role
          { point := point
            input := fun role => match n.input? role with
              | some q => g.plainSignal sound point q.id
              | none => .number 0
            isConnected := g.wiring.isConnected n }).getD p.kind.default
      else match g.wiring.incoming? id with
        | some c => g.plainSignal sound point c.source
        | none => p.kind.default := by
  rw [plainSignal]
  split
  · next found =>
    rw [known] at found
    cases found
  · next found =>
    rw [known] at found
    cases found
    split
    · refine congrArg (fun input => Option.getD (n.params.rule p.role ⟨point, input, _⟩) _)
        (funext fun role => ?_)
      split <;> simp [*]
    · split <;> simp [*]

/-- An output has what the rule of its node gives on the signals of the inputs. -/
theorem plainSignal_output {n : Node} {p : Port} (member : n ∈ g.nodes) (port : p ∈ n.outputs) :
    g.plainSignal sound point p.id =
      (n.params.rule p.role
        { point := point
          input := fun role => g.plainSignal sound point (portId n.id role)
          isConnected := g.wiring.isConnected n }).getD p.kind.default := by
  rw [plainSignal_eq sound point (sound.find?_output member port),
    if_pos (isOutput_of_mem_outputs port)]
  refine congrArg (Option.getD · p.kind.default)
    (Params.rule_congr _ _ rfl (fun spec declared => ?_) rfl)
  have listed : spec.bind n.id ∈ n.inputs := List.mem_map_of_mem declared
  have known : n.input? spec.role = some (spec.bind n.id) := Node.input?_of_mem listed
  dsimp only
  rw [known]
  rfl

/-- A connected input has the signal of its source. -/
theorem plainSignal_connected {c : Connection} (member : c ∈ g.connections) :
    g.plainSignal sound point c.target = g.plainSignal sound point c.source := by
  obtain ⟨n, _, q, port, _, known⟩ := sound.find?_target member
  rw [plainSignal_eq sound point known, if_neg (by simp [isOutput_of_mem_inputs port]),
    sound.incoming?_iff.mpr ⟨member, rfl⟩]

/-- An open input has the default of its kind. -/
theorem plainSignal_open {n : Node} {q : Port} (member : n ∈ g.nodes) (port : q ∈ n.inputs)
    (unconnected : g.wiring.incoming? q.id = none) :
    g.plainSignal sound point q.id = q.kind.default := by
  rw [plainSignal_eq sound point (sound.find?_input member port),
    if_neg (by simp [isOutput_of_mem_inputs port]), unconnected]

end Plain

/-! ## 2. The guarded recursion -/

section Guarded

variable {g : Graph} (sound : g.Sound) (limit : DepthLimit) (point : Point)
  {visiting : List String} {depth : Nat}

/-- What the rule of a node sees in the guarded recursion. -/
def guardedInputs (g : Graph) (limit : DepthLimit) (point : Point) (visiting : List String)
    (depth : Nat) (n : Node) : Surroundings :=
  { point := point
    input := fun role => g.wiring.portSignal limit point visiting depth (portId n.id role)
    isConnected := g.wiring.isConnected n }

theorem guarded_unknown {id : String} (unknown : g.wiring.find? id = none) :
    g.wiring.portSignal limit point visiting depth id = .number 0 := by
  rw [Wiring.portSignal]
  split
  · rfl
  · next found =>
    rw [unknown] at found
    cases found

/-- The guarded recursion at a port of the graph. -/
theorem guarded_eq {id : String} {n : Node} {p : Port}
    (known : g.wiring.find? id = some (n, p)) :
    g.wiring.portSignal limit point visiting depth id =
      if limit.isExceeded depth then p.kind.default
      else if visiting.contains id then p.kind.default
      else if p.isOutput then
        (n.params.rule p.role (g.guardedInputs limit point (id :: visiting) depth n)).getD
          p.kind.default
      else match g.wiring.incoming? id with
        | none => p.kind.default
        | some c => g.wiring.portSignal limit point (id :: visiting) (depth + 1) c.source := by
  rw [Wiring.portSignal]
  split
  · next found =>
    rw [known] at found
    cases found
  · next found =>
    rw [known] at found
    cases found
    simp only [dite_eq_ite]
    rfl

theorem guarded_exceeded {id : String} {n : Node} {p : Port}
    (known : g.wiring.find? id = some (n, p)) (exceeded : limit.isExceeded depth = true) :
    g.wiring.portSignal limit point visiting depth id = p.kind.default := by
  rw [guarded_eq limit point known, if_pos exceeded]

include sound

theorem guarded_output {n : Node} {p : Port} (member : n ∈ g.nodes) (port : p ∈ n.outputs)
    (within : limit.isExceeded depth = false) (fresh : p.id ∉ visiting) :
    g.wiring.portSignal limit point visiting depth p.id =
      (n.params.rule p.role (g.guardedInputs limit point (p.id :: visiting) depth n)).getD
        p.kind.default := by
  rw [guarded_eq limit point (sound.find?_output member port), if_neg (by simp [within]),
    if_neg (by simpa using fresh), if_pos (isOutput_of_mem_outputs port)]

theorem guarded_connected {c : Connection} (member : c ∈ g.connections)
    (within : limit.isExceeded depth = false) (fresh : c.target ∉ visiting) :
    g.wiring.portSignal limit point visiting depth c.target =
      g.wiring.portSignal limit point (c.target :: visiting) (depth + 1) c.source := by
  obtain ⟨n, _, q, port, _, known⟩ := sound.find?_target member
  rw [guarded_eq limit point known, if_neg (by simp [within]), if_neg (by simpa using fresh),
    if_neg (by simp [isOutput_of_mem_inputs port]), sound.incoming?_iff.mpr ⟨member, rfl⟩]

theorem guarded_open {n : Node} {q : Port} (member : n ∈ g.nodes) (port : q ∈ n.inputs)
    (unconnected : g.wiring.incoming? q.id = none) :
    g.wiring.portSignal limit point visiting depth q.id = q.kind.default := by
  rw [guarded_eq limit point (sound.find?_input member port)]
  split
  · rfl
  · split
    · rfl
    · rw [if_neg (by simp [isOutput_of_mem_inputs port]), unconnected]

/-- Ports on the way that rank above a port do not matter to its signal. -/
theorem guarded_visiting (id : String) : ∀ visiting depth,
    (∀ v ∈ visiting, g.rank id < g.rank v) →
    g.wiring.portSignal limit point visiting depth id =
      g.wiring.portSignal limit point [] depth id := by
  have fresh : ∀ {id : String} {visiting : List String},
      (∀ v ∈ visiting, g.rank id < g.rank v) → id ∉ visiting :=
    fun above member => Nat.lt_irrefl _ (above _ member)
  induction id using sound.port_induction with
  | unknown id unknown =>
    intro visiting depth _
    rw [guarded_unknown limit point unknown, guarded_unknown limit point unknown]
  | output n member p port ih =>
    intro visiting depth above
    cases exceeded : limit.isExceeded depth with
    | true =>
      have known := sound.find?_output member port
      rw [guarded_exceeded limit point known exceeded, guarded_exceeded limit point known exceeded]
    | false =>
      rw [guarded_output sound limit point member port exceeded (fresh above),
        guarded_output sound limit point member port exceeded List.not_mem_nil]
      -- both surroundings pull the inputs with `p` on the way
      refine congrArg (Option.getD · p.kind.default)
        (Params.rule_congr _ _ rfl (fun spec declared => ?_) rfl)
      have listed : spec.bind n.id ∈ n.inputs := List.mem_map_of_mem declared
      have lower := sound.rank_input_lt member port listed
      have first := ih _ listed (p.id :: visiting) depth
        (List.forall_mem_cons.mpr ⟨lower, fun v way => lower.trans (above v way)⟩)
      have second := ih _ listed [p.id] depth
        (List.forall_mem_cons.mpr ⟨lower, fun _ none => absurd none List.not_mem_nil⟩)
      exact first.trans second.symm
  | connected c member ih =>
    intro visiting depth above
    cases exceeded : limit.isExceeded depth with
    | true =>
      obtain ⟨n, _, q, _, _, known⟩ := sound.find?_target member
      rw [guarded_exceeded limit point known exceeded, guarded_exceeded limit point known exceeded]
    | false =>
      have lower := sound.rank_source_lt member
      rw [guarded_connected sound limit point member exceeded (fresh above),
        guarded_connected sound limit point member exceeded List.not_mem_nil,
        ih (c.target :: visiting) (depth + 1)
          (List.forall_mem_cons.mpr ⟨lower, fun v way => lower.trans (above v way)⟩),
        ih [c.target] (depth + 1)
          (List.forall_mem_cons.mpr ⟨lower, fun _ none => absurd none List.not_mem_nil⟩)]
  | unconnected n member q port none =>
    intro visiting depth _
    rw [guarded_open sound limit point member port none,
      guarded_open sound limit point member port none]

/-- An output port asks the rule of its node, with the same limit for the inputs. -/
theorem pulled_output {n : Node} {p : Port} (member : n ∈ g.nodes) (port : p ∈ n.outputs)
    (within : limit.isExceeded depth = false) :
    g.wiring.portSignal limit point [] depth p.id =
      (n.params.rule p.role (g.guardedInputs limit point [] depth n)).getD p.kind.default := by
  rw [guarded_output sound limit point member port within List.not_mem_nil]
  refine congrArg (Option.getD · p.kind.default)
    (Params.rule_congr _ _ rfl (fun spec declared => ?_) rfl)
  have listed : spec.bind n.id ∈ n.inputs := List.mem_map_of_mem declared
  exact guarded_visiting sound limit point (spec.bind n.id).id [p.id] depth
    (List.forall_mem_cons.mpr ⟨sound.rank_input_lt member port listed,
      fun _ none => absurd none List.not_mem_nil⟩)

/-- A connected input asks its source, one connection deeper. -/
theorem pulled_connected {c : Connection} (member : c ∈ g.connections)
    (within : limit.isExceeded depth = false) :
    g.wiring.portSignal limit point [] depth c.target =
      g.wiring.portSignal limit point [] (depth + 1) c.source := by
  rw [guarded_connected sound limit point member within List.not_mem_nil]
  exact guarded_visiting sound limit point c.source [c.target] (depth + 1)
    (List.forall_mem_cons.mpr ⟨sound.rank_source_lt member,
      fun _ none => absurd none List.not_mem_nil⟩)

end Guarded

/-! ## 3. The limit -/

section Limit

variable {g : Graph} (sound : g.Sound) (limit : DepthLimit) (point : Point)

include sound

/-- A deeper call within a limit is a shallower one within the limit behind a connection. -/
theorem pulled_behind (id : String) : ∀ depth,
    g.wiring.portSignal limit point [] (depth + 1) id =
      g.wiring.portSignal limit.behind point [] depth id := by
  induction id using sound.port_induction with
  | unknown id unknown =>
    intro depth
    rw [guarded_unknown _ point unknown, guarded_unknown _ point unknown]
  | output n member p port ih =>
    intro depth
    have shift := limit.isExceeded_behind depth
    cases exceeded : limit.isExceeded (depth + 1) with
    | true =>
      have known := sound.find?_output member port
      rw [guarded_exceeded _ point known exceeded,
        guarded_exceeded _ point known (shift.trans exceeded)]
    | false =>
      rw [pulled_output sound _ point member port exceeded,
        pulled_output sound _ point member port (shift.trans exceeded)]
      refine congrArg (Option.getD · p.kind.default)
        (Params.rule_congr _ _ rfl (fun spec declared => ?_) rfl)
      exact ih _ (List.mem_map_of_mem declared) depth
  | connected c member ih =>
    intro depth
    have shift := limit.isExceeded_behind depth
    cases exceeded : limit.isExceeded (depth + 1) with
    | true =>
      obtain ⟨n, _, q, _, _, known⟩ := sound.find?_target member
      rw [guarded_exceeded _ point known exceeded,
        guarded_exceeded _ point known (shift.trans exceeded)]
    | false =>
      rw [pulled_connected sound _ point member exceeded,
        pulled_connected sound _ point member (shift.trans exceeded), ih]
  | unconnected n member q port none =>
    intro depth
    rw [guarded_open sound _ point member port none, guarded_open sound _ point member port none]

/-- Following a connection costs one of the limit, whatever the limit is. -/
theorem portSignal_target {c : Connection} (member : c ∈ g.connections) :
    g.portSignal limit c.target point = g.portSignal limit.behind c.source point := by
  unfold portSignal
  cases exceeded : limit.isExceeded 0 with
  | false =>
    rw [pulled_connected sound limit point member exceeded, pulled_behind sound limit point]
  | true =>
    obtain ⟨p, q, joins⟩ := sound.joined c member
    obtain ⟨m, mm, mp, _⟩ := joins.source
    obtain ⟨n, mn, mq, _⟩ := joins.target
    have source := sound.find?_output mm mp
    have target := sound.find?_input mn mq
    rw [joins.source_id] at source
    rw [joins.target_id] at target
    have deeper : limit.behind.isExceeded 0 = true :=
      (limit.isExceeded_behind 0).trans (limit.isExceeded_succ exceeded)
    rw [guarded_exceeded limit point target exceeded, guarded_exceeded _ point source deeper,
      joins.kind_eq]

/-- Asking the inputs of a node costs nothing of the limit. -/
theorem portSignal_output {n : Node} {p : Port} (member : n ∈ g.nodes) (port : p ∈ n.outputs)
    (within : limit.isExceeded 0 = false) :
    g.portSignal limit p.id point =
      (n.params.rule p.role
        { point := point
          input := fun role => g.portSignal limit (portId n.id role) point
          isConnected := g.wiring.isConnected n }).getD p.kind.default :=
  pulled_output sound limit point member port within

/-! ## 4. The guarded evaluation is the plain one -/

theorem pulled_eq_plainSignal (id : String) : ∀ depth,
    (∀ k, g.Chain id k → limit.isExceeded (depth + k) = false) →
    g.wiring.portSignal limit point [] depth id = g.plainSignal sound point id := by
  induction id using sound.port_induction with
  | unknown id unknown =>
    intro depth _
    rw [guarded_unknown limit point unknown, plainSignal_unknown sound point unknown]
  | output n member p port ih =>
    intro depth enough
    have within : limit.isExceeded depth = false := enough 0 (.here _)
    rw [pulled_output sound limit point member port within,
      plainSignal_output sound point member port]
    refine congrArg (Option.getD · p.kind.default)
      (Params.rule_congr _ _ rfl (fun spec declared => ?_) rfl)
    have listed : spec.bind n.id ∈ n.inputs := List.mem_map_of_mem declared
    exact ih _ listed depth fun k chain => enough k (.cross member port listed chain)
  | connected c member ih =>
    intro depth enough
    have within : limit.isExceeded depth = false := enough 0 (.here _)
    rw [pulled_connected sound limit point member within,
      plainSignal_connected sound point member]
    refine ih (depth + 1) fun k chain => ?_
    rw [Nat.add_assoc, Nat.add_comm 1]
    exact enough (k + 1) (.follow member chain)
  | unconnected n member q port none =>
    intro depth _
    rw [guarded_open sound limit point member port none,
      plainSignal_open sound point member port none]

end Limit

/-- On every reachable graph, evaluation within a limit that admits every chain of connections
behind a port gives the plain signal of the port, and each connection costs one of the limit. -/
theorem Reachable.portSignal_eq_plainSignal {g : Graph} (reachable : g.Reachable) (point : Point) :
    (∀ (id : String) (limit : DepthLimit), (∀ k, g.Chain id k → limit.isExceeded k = false) →
      g.portSignal limit id point = g.plainSignal reachable.sound point id) ∧
    (∀ c ∈ g.connections, ∀ limit : DepthLimit,
      g.portSignal limit c.target point = g.portSignal limit.behind c.source point) ∧
    (∀ n ∈ g.nodes, ∀ p ∈ n.outputs, ∀ limit : DepthLimit, limit.isExceeded 0 = false →
      g.portSignal limit p.id point =
        (n.params.rule p.role
          { point := point
            input := fun role => g.portSignal limit (portId n.id role) point
            isConnected := g.wiring.isConnected n }).getD p.kind.default) ∧
    ∀ n ∈ g.nodes, ∀ p ∈ n.ports, ∀ limit : DepthLimit, limit.isExceeded 0 = true →
      g.portSignal limit p.id point = p.kind.default := by
  refine ⟨fun id limit enough => ?_, fun c member limit => ?_,
    fun n member p port limit within => ?_, fun n member p port limit exceeded => ?_⟩
  · refine pulled_eq_plainSignal reachable.sound limit point id 0 fun k chain => ?_
    rw [Nat.zero_add]
    exact enough k chain
  · exact portSignal_target reachable.sound limit point member
  · exact portSignal_output reachable.sound limit point member port within
  · have known := reachable.sound.find?_iff.mpr ⟨member, port, rfl⟩
    exact guarded_exceeded limit point known exceeded

/-- The absolute value of a height of minus three. -/
theorem connectedPair_portSignal :
    (connectedPair.portSignal (some 2) "2_out" ⟨0, -3, 0⟩).number?.map Float.toBits =
      some (3 : Float).toBits ∧
    connectedPair.portSignal (some 2) "2_out" ⟨0, -3, 0⟩ =
      connectedPair.plainSignal connectedPair_built.reachable.sound ⟨0, -3, 0⟩ "2_out" := by
  refine ⟨by decide +kernel, ?_⟩
  refine (Reachable.portSignal_eq_plainSignal connectedPair_built.reachable _).1 _ _ ?_
  intro k chain
  have nodes : connectedPair.nodes.length = 2 := by decide +kernel
  have short := chain.le_length connectedPair_built.reachable.sound
  simp only [DepthLimit.isExceeded, decide_eq_false_iff_not]
  omega

end Graph

end Landform
