import Landform.Proofs.Evaluation.Deep
import Landform.Proofs.Graph.Building
import Landform.Proofs.Script.Complete

/-!
# What the templates mean

A template leaves the same nodes and connections whatever the seed is, but for the seeds of its
noise. From these the meaning follows: validation finds nothing, there is a script, and the terrain
at a point is decided by comparing the height of the point with the noises.

1. `run_simple`, `run_layered`: the graphs of the templates.
2. `Sound.signal_less`, `Sound.terrainAt_of_signal`: signals along the connections of a graph.
3. `terrainAt_simple`, `terrainAt_layered`, `build_means`: what the templates mean.
-/

namespace Landform

namespace Template

/-! ## 1. The graphs of the templates -/

/-- Stone and water as the layered template shows them. -/
def stone : Terrain := ⟨"default:stone", .solid, "#888888"⟩

def water : Terrain := ⟨"default:water_source", .liquid, "#4444ff"⟩

/-- The surface of the simple template. -/
def surface (seed : Int) : Noise.Settings Float :=
  { Noise.Settings.default seed with scale := 20 }

/-- The hills of the layered template. -/
def hills : Noise.Settings Float :=
  { offset := 0, scale := 50, spreadX := 384, spreadY := 256, seed := 5900033, octaves := 5,
    persist := 0.63, lacunarity := 2, flags := .defaults }

/-- The water level of the layered template. -/
def level (seed : Int) : Noise.Settings Float :=
  { Noise.Settings.default seed with offset := 0, scale := 0, spreadX := 100, spreadY := 100 }

theorem isChecked_surface (seed : Int) : (surface seed).isChecked = true := by
  show ((250 : Float) != 0.0 && (250 : Float) != 0.0) = true
  decide +kernel

theorem isChecked_level (seed : Int) : (level seed).isChecked = true := by
  show ((100 : Float) != 0.0 && (100 : Float) != 0.0) = true
  decide +kernel

theorem update_surface (seed id : Int) (x y : Float) :
    (Node.mk id (Kind.noise2d.defaults seed) x y []).update [("scale", .int 20)] =
      .ok ⟨id, .noise2d (surface seed), x, y, []⟩ :=
  Node.update_fresh (by decide) (Params.replace_noise2d (isChecked_surface seed) rfl) id x y

theorem update_hills (seed id : Int) (x y : Float) :
    (Node.mk id (Kind.noise2d.defaults seed) x y []).update
      [("offset", .int 0), ("scale", .int 50), ("spread_x", .int 384), ("spread_y", .int 256),
        ("seed", .int 5900033), ("octaves", .int 5), ("persist", .float 0.63),
        ("lacunarity", .float 2), ("flags", .int Noise.Flags.defaults.bits)] =
      .ok ⟨id, .noise2d hills, x, y, []⟩ :=
  Node.update_fresh (by decide) (Params.replace_noise2d (by decide +kernel) rfl) id x y

theorem update_level (seed id : Int) (x y : Float) :
    (Node.mk id (Kind.noise2d.defaults seed) x y []).update
      [("offset", .int 0), ("scale", .int 0), ("spread_x", .int 100), ("spread_y", .int 100)] =
      .ok ⟨id, .noise2d (level seed), x, y, []⟩ :=
  Node.update_fresh (by decide) (Params.replace_noise2d (isChecked_level seed) rfl) id x y

theorem update_branches (seed id : Int) (x y : Float) :
    (Node.mk id (Kind.compare.defaults seed) x y []).update
      [("use_true", .int 0), ("use_false", .int 0)] =
      .ok ⟨id, .compare ⟨.less, 0, 0⟩, x, y, []⟩ :=
  Node.update_fresh (k := .compare) (by decide) rfl id x y

/-- The nodes of the simple template, with its noise. -/
def simpleNodes (noise : Noise.Settings Float) : List Node :=
  [⟨1, .position, 100, 150, []⟩, ⟨2, .noise2d noise, 300, 100, []⟩,
    ⟨3, .compare ⟨.less, 1, 0⟩, 500, 150, []⟩, ⟨4, .terrainType stone, 300, 250, []⟩,
    ⟨5, .terrainType .openAir, 300, 350, []⟩, ⟨6, .terrainOutput, 700, 150, []⟩]

/-- The links of the simple template. -/
def simpleLinks : List Graph.Link :=
  [⟨1, "outY", 3, "in1"⟩, ⟨2, "out", 3, "in2"⟩, ⟨4, "out", 3, "useTrue"⟩,
    ⟨5, "out", 3, "useFalse"⟩, ⟨3, "out", 6, "in"⟩]

/-- The nodes of the layered template, with its two noises. -/
def layeredNodes (hills level : Noise.Settings Float) : List Node :=
  [⟨1, .position, 100, 200, []⟩, ⟨2, .noise2d hills, 300, 100, []⟩,
    ⟨3, .compare ⟨.less, 1, 0⟩, 500, 200, []⟩, ⟨4, .terrainType stone, 350, 300, []⟩,
    ⟨5, .terrainType water, 650, 300, []⟩, ⟨6, .compare ⟨.less, 0, 0⟩, 650, 200, []⟩,
    ⟨7, .noise2d level, 500, 100, []⟩, ⟨8, .terrainType .openAir, 500, 400, []⟩,
    ⟨9, .terrainOutput, 800, 200, []⟩]

/-- The links of the layered template. -/
def layeredLinks : List Graph.Link :=
  [⟨1, "outY", 3, "in1"⟩, ⟨1, "outY", 6, "in1"⟩, ⟨7, "out", 6, "in2"⟩, ⟨2, "out", 3, "in2"⟩,
    ⟨4, "out", 3, "useTrue"⟩, ⟨6, "out", 3, "useFalse"⟩, ⟨5, "out", 6, "useTrue"⟩,
    ⟨8, "out", 6, "useFalse"⟩, ⟨3, "out", 9, "in"⟩]

theorem bare_simpleNodes (noise : Noise.Settings Float) :
    (simpleNodes noise).map Node.bare = (simpleNodes hills).map Node.bare := rfl

theorem bare_layeredNodes (lower upper : Noise.Settings Float) :
    (layeredNodes lower upper).map Node.bare = (layeredNodes hills hills).map Node.bare := rfl

theorem linkable_simple : Graph.linkable (simpleNodes hills) [] simpleLinks = true := by
  decide +kernel

theorem linkable_layered : Graph.linkable (layeredNodes hills hills) [] layeredLinks = true := by
  decide +kernel

/-- The simple template is built whatever the seed is; the noise gets a random seed. -/
theorem run_simple (seed : Int) : ∃ g noiseSeed, (Graph.empty seed).run simple = (g, .ok ()) ∧
    g.Holding (simpleNodes (surface noiseSeed)) (simpleLinks.map Graph.Link.connection) := by
  obtain ⟨g₁, _, position, h₁⟩ := Graph.run_place (Graph.holding_empty seed)
    (show _ = 1 from rfl) (show Catalog.find "position" = .ok .position from rfl)
    (show Value.toFloat (.int 100) = .ok 100 from rfl)
    (show Value.toFloat (.int 150) = .ok 150 from rfl)
  obtain ⟨g₂, g₃, noiseSeed, noise, scaled, h₃⟩ := Graph.run_place_update h₁
    (show _ = 2 from rfl) (show Catalog.find "noise2d" = .ok .noise2d from rfl)
    (show Value.toFloat (.int 300) = .ok 300 from rfl)
    (show Value.toFloat (.int 100) = .ok 100 from rfl) fun seed => update_surface seed _ _ _
  obtain ⟨g₄, _, compare, h₄⟩ := Graph.run_place h₃ (show _ = 3 from rfl)
    (show Catalog.find "compare" = .ok .compare from rfl)
    (show Value.toFloat (.int 500) = .ok 500 from rfl)
    (show Value.toFloat (.int 150) = .ok 150 from rfl)
  obtain ⟨g₅, stone, h₅⟩ := Graph.run_terrain h₄ (show _ = 4 from rfl) "#888888"
    (show Text.isBlankText "default:stone" = false by decide +kernel)
    (show Material.solid.name = "solid" from rfl)
    (show Value.toFloat (.int 300) = .ok 300 from rfl)
    (show Value.toFloat (.int 250) = .ok 250 from rfl)
  obtain ⟨g₆, air, h₆⟩ := Graph.run_terrain h₅ (show _ = 5 from rfl) "#aaccff"
    (show Text.isBlankText "air" = false by decide +kernel)
    (show Material.air.name = "air" from rfl)
    (show Value.toFloat (.int 300) = .ok 300 from rfl)
    (show Value.toFloat (.int 350) = .ok 350 from rfl)
  obtain ⟨g₇, _, output, h₇⟩ := Graph.run_place h₆ (show _ = 6 from rfl)
    (show Catalog.find "terrain-output" = .ok .terrainOutput from rfl)
    (show Value.toFloat (.int 700) = .ok 700 from rfl)
    (show Value.toFloat (.int 150) = .ok 150 from rfl)
  have laid : Graph.Holding (simpleNodes (surface noiseSeed)) [] g₇ := h₇
  obtain ⟨g₈, linked, _, h₈⟩ := Graph.run_links (bare_simpleNodes _) simpleLinks laid linkable_simple
  refine ⟨g₈, noiseSeed, ?_, h₈⟩
  rw [simple, Graph.run_bind_ok position, Graph.run_bind_ok noise, Graph.run_bind_ok scaled,
    Graph.run_bind_ok compare, Graph.run_bind_ok stone, Graph.run_bind_ok air,
    Graph.run_bind_ok output, ← linked]
  simp [simpleLinks, Graph.Link.edit]

/-- The layered template is built whatever the seed is; the water level gets a random seed. -/
theorem run_layered (seed : Int) : ∃ g levelSeed, (Graph.empty seed).run layered = (g, .ok ()) ∧
    g.Holding (layeredNodes hills (level levelSeed))
      (layeredLinks.map Graph.Link.connection) := by
  obtain ⟨g₁, _, position, h₁⟩ := Graph.run_place (Graph.holding_empty seed)
    (show _ = 1 from rfl) (show Catalog.find "position" = .ok .position from rfl)
    (show Value.toFloat (.int 100) = .ok 100 from rfl)
    (show Value.toFloat (.int 200) = .ok 200 from rfl)
  obtain ⟨g₂, g₃, _, rolling, raised, h₃⟩ := Graph.run_place_update h₁
    (show _ = 2 from rfl) (show Catalog.find "noise2d" = .ok .noise2d from rfl)
    (show Value.toFloat (.int 300) = .ok 300 from rfl)
    (show Value.toFloat (.int 100) = .ok 100 from rfl) fun seed => update_hills seed _ _ _
  obtain ⟨g₄, _, compare, h₄⟩ := Graph.run_place h₃ (show _ = 3 from rfl)
    (show Catalog.find "compare" = .ok .compare from rfl)
    (show Value.toFloat (.int 500) = .ok 500 from rfl)
    (show Value.toFloat (.int 200) = .ok 200 from rfl)
  obtain ⟨g₅, stone, h₅⟩ := Graph.run_terrain h₄ (show _ = 4 from rfl) "#888888"
    (show Text.isBlankText "default:stone" = false by decide +kernel)
    (show Material.solid.name = "solid" from rfl)
    (show Value.toFloat (.int 350) = .ok 350 from rfl)
    (show Value.toFloat (.int 300) = .ok 300 from rfl)
  obtain ⟨g₆, water, h₆⟩ := Graph.run_terrain h₅ (show _ = 5 from rfl) "#4444ff"
    (show Text.isBlankText "default:water_source" = false by decide +kernel)
    (show Material.liquid.name = "liquid" from rfl)
    (show Value.toFloat (.int 650) = .ok 650 from rfl)
    (show Value.toFloat (.int 300) = .ok 300 from rfl)
  obtain ⟨g₇, g₈, _, waterCompare, zeroed, h₈⟩ := Graph.run_place_update h₆
    (show _ = 6 from rfl) (show Catalog.find "compare" = .ok .compare from rfl)
    (show Value.toFloat (.int 650) = .ok 650 from rfl)
    (show Value.toFloat (.int 200) = .ok 200 from rfl) fun seed => update_branches seed _ _ _
  obtain ⟨g₉, g₁₀, levelSeed, waterLevel, flattened, h₁₀⟩ := Graph.run_place_update h₈
    (show _ = 7 from rfl) (show Catalog.find "noise2d" = .ok .noise2d from rfl)
    (show Value.toFloat (.int 500) = .ok 500 from rfl)
    (show Value.toFloat (.int 100) = .ok 100 from rfl) fun seed => update_level seed _ _ _
  obtain ⟨g₁₁, air, h₁₁⟩ := Graph.run_terrain h₁₀ (show _ = 8 from rfl) "#aaccff"
    (show Text.isBlankText "air" = false by decide +kernel)
    (show Material.air.name = "air" from rfl)
    (show Value.toFloat (.int 500) = .ok 500 from rfl)
    (show Value.toFloat (.int 400) = .ok 400 from rfl)
  obtain ⟨g₁₂, _, output, h₁₂⟩ := Graph.run_place h₁₁ (show _ = 9 from rfl)
    (show Catalog.find "terrain-output" = .ok .terrainOutput from rfl)
    (show Value.toFloat (.int 800) = .ok 800 from rfl)
    (show Value.toFloat (.int 200) = .ok 200 from rfl)
  have laid : Graph.Holding (layeredNodes hills (level levelSeed)) [] g₁₂ := h₁₂
  obtain ⟨g₁₃, linked, _, h₁₃⟩ :=
    Graph.run_links (bare_layeredNodes _ _) layeredLinks laid linkable_layered
  refine ⟨g₁₃, levelSeed, ?_, h₁₃⟩
  rw [layered, Graph.run_bind_ok position, Graph.run_bind_ok rolling, Graph.run_bind_ok raised,
    Graph.run_bind_ok compare, Graph.run_bind_ok stone, Graph.run_bind_ok water,
    Graph.run_bind_ok waterCompare, Graph.run_bind_ok zeroed, Graph.run_bind_ok waterLevel,
    Graph.run_bind_ok flattened, Graph.run_bind_ok air, Graph.run_bind_ok output, ← linked]
  simp [layeredLinks, Graph.Link.edit]

end Template

/-! ## 2. Signals -/

namespace Graph

variable {g : Graph} (sound : g.Sound) {limit : DepthLimit} (point : Point)

include sound

theorem Sound.isConnected {c : Connection} (joined : c ∈ g.connections) {n : Node} {role : String}
    (target : c.target = portId n.id role) : g.wiring.isConnected n role = true := by
  rw [Wiring.isConnected, sound.incoming?_iff.mpr ⟨joined, target⟩]
  rfl

/-- The terrain of a graph is what its output node receives. -/
theorem Sound.terrainAt_of_signal {o : Node} (found : g.output? = some o) {c : Connection}
    (joined : c ∈ g.connections) (target : c.target = portId o.id "in") {t : Terrain}
    (signal : g.portSignal limit c.target point = .terrain t) :
    g.terrainAt limit point = some t := by
  have input := terrainInput?_eq found
  rw [if_pos (sound.isConnected joined target)] at input
  rw [target, Graph.portSignal] at signal
  rw [terrainAt, Probe.terrain, probe, input]
  dsimp only
  rw [signal]

variable (deep : limit.isExceeded g.nodes.length = false)

include deep

/-- Both ends of a connection have the same signal. -/
theorem Sound.signal_connection {c : Connection} (joined : c ∈ g.connections) :
    g.portSignal limit c.target point = g.portSignal limit c.source point := by
  rw [deep_eq_plainSignal sound point deep, deep_eq_plainSignal sound point deep]
  exact plainSignal_connected sound point joined

/-- An output has what the rule of its node gives. -/
theorem Sound.signal_output {n : Node} (listed : n ∈ g.nodes) {spec : PortSpec}
    (declared : spec ∈ n.kind.outputs) {signal : Signal}
    (given : n.params.rule spec.role (g.surroundings limit point n) = some signal) :
    g.portSignal limit (portId n.id spec.role) point = signal := by
  have port : spec.bind n.id ∈ n.outputs := List.mem_map_of_mem declared
  have answer := deep_output sound point deep listed port
  rw [ruleSignal?, show (spec.bind n.id).role = spec.role from rfl, given] at answer
  exact answer

section Outputs

variable {id : Int} {left top : Float}

theorem Sound.signal_height (listed : ⟨id, .position, left, top, []⟩ ∈ g.nodes) :
    g.portSignal limit (portId id "outY") point = .number point.y :=
  sound.signal_output point deep listed
    (show PortSpec.output "outY" "Y" .float ∈ Kind.position.outputs by decide) rfl

theorem Sound.signal_noise {noise : Noise.Settings Float}
    (listed : ⟨id, .noise2d noise, left, top, []⟩ ∈ g.nodes) :
    g.portSignal limit (portId id "out") point = .number (noise.fractal2 point.x point.z 0) :=
  sound.signal_output point deep listed
    (show PortSpec.output "out" "Value" .float ∈ Kind.noise2d.outputs by decide) rfl

theorem Sound.signal_terrain {t : Terrain}
    (listed : ⟨id, .terrainType t, left, top, []⟩ ∈ g.nodes) :
    g.portSignal limit (portId id "out") point = .terrain t :=
  sound.signal_output point deep listed
    (show PortSpec.output "out" "Terrain" .terrain ∈ Kind.terrainType.outputs by decide) rfl

/-- A comparison whose branches are both connected hands one of them on. -/
theorem Sound.signal_less {useTrue useFalse x y : Float} {s t : Signal}
    (listed : ⟨id, .compare ⟨.less, useTrue, useFalse⟩, left, top, []⟩ ∈ g.nodes)
    (first : g.portSignal limit (portId id "in1") point = .number x)
    (second : g.portSignal limit (portId id "in2") point = .number y)
    {below above : Connection} (joined : below ∈ g.connections) (joined' : above ∈ g.connections)
    (target : below.target = portId id "useTrue") (target' : above.target = portId id "useFalse")
    (lower : g.portSignal limit below.target point = s)
    (upper : g.portSignal limit above.target point = t) :
    g.portSignal limit (portId id "out") point = if x < y then s else t := by
  let test : Test := ⟨.less, useTrue, useFalse⟩
  let n : Node := ⟨id, .compare test, left, top, []⟩
  have decides : g.taken? limit point n test = some (decide (x < y)) := by
    rw [taken?, first, second]
    rfl
  have port : (PortSpec.output "out" "Result" .terrain).bind id ∈ n.outputs :=
    List.mem_map_of_mem (show _ ∈ Kind.compare.outputs by decide)
  have connected : g.wiring.isConnected n "useTrue" = true := sound.isConnected joined target
  have connected' : g.wiring.isConnected n "useFalse" = true := sound.isConnected joined' target'
  rw [target] at lower
  rw [target'] at upper
  refine (portSignal_compare sound point deep listed port rfl decides).trans ?_
  by_cases less : x < y
  · rw [if_pos less, decide_eq_true less]
    exact (if_pos connected).trans lower
  · rw [if_neg less, decide_eq_false less]
    exact (if_pos connected').trans upper

end Outputs

end Graph

namespace Template

/-! ## 3. What the templates mean -/

/-- Stone below the noise, air elsewhere. -/
def simpleTerrain (noise : Noise.Settings Float) (point : Point) : Terrain :=
  if point.y < noise.fractal2 point.x point.z 0 then stone else .openAir

/-- Stone below the hills, water below the level, air elsewhere. -/
def layeredTerrain (hills level : Noise.Settings Float) (point : Point) : Terrain :=
  if point.y < hills.fractal2 point.x point.z 0 then stone
  else if point.y < level.fractal2 point.x point.z 0 then water
  else .openAir

/-- The noises in the plane that a graph stores, in the order of its nodes. -/
def noises (g : Graph) : List (Noise.Settings Float) :=
  g.nodes.filterMap fun n => match n.params with
    | .noise2d noise => some noise
    | _ => none

/-- Validation finds nothing in a graph, and it has a script with the usual options and with any
other water level. -/
structure Clean (g : Graph) : Prop where
  validated : g.validate = .ok ⟨[], []⟩
  compiled : ∃ code, Script.compile g .default = .ok ⟨some code, [], []⟩
  compiled_at (level : Float) :
    ∃ code, Script.compile g ⟨.float level, Script.Options.default.header⟩ = .ok ⟨some code, [], []⟩

theorem compile_of_findings {g : Graph} {options : Script.Options} {script : Script}
    (validated : g.validate = .ok ⟨[], []⟩) (made : Script.ofGraph g options = .ok script)
    (balanced : Lua.imbalances script.render = []) :
    Script.compile g options = .ok ⟨some script.render, [], []⟩ := by
  unfold Script.compile
  rw [validated, made]
  show Except.ok (⟨_, (Lua.imbalances script.render).map (·.message), _⟩ : Script.Compiled) = _
  rw [balanced]
  rfl

theorem clean_of_findings {g : Graph} (sound : g.Sound) (none : g.findings = ⟨[], []⟩) :
    Clean g := by
  have validated : g.validate = .ok ⟨[], []⟩ := by rw [sound.validate_eq, none]
  have header : Lua.Tallied ["-- Luamap generated terrain"] 0 := .comment (by decide)
  have whole : Script.ofGraph g .default =
      Script.ofGraph g ⟨.float 0, Script.Options.default.header⟩ := by
    unfold Script.ofGraph
    rw [show Lua.numberOf Script.Options.default.waterLevel = Lua.numberOf (.float 0) from rfl]
  refine ⟨validated, ?_, fun level => ?_⟩
  · obtain ⟨script, made, balanced⟩ := Script.ofGraph_ok sound 0 header
    exact ⟨_, compile_of_findings validated (whole.trans made) balanced⟩
  · obtain ⟨script, made, balanced⟩ := Script.ofGraph_ok sound level header
    exact ⟨_, compile_of_findings validated made balanced⟩

variable {g : Graph} {noise lower upper : Noise.Settings Float}

section Holding

variable {nodes : List Node} {links : List Graph.Link}
  (holding : g.Holding nodes (links.map Graph.Link.connection))

include holding

theorem listed_of_holding : ∀ n ∈ nodes, n ∈ g.nodes := by
  rw [holding.nodes_eq]
  exact fun _ member => member

theorem joined_of_holding : ∀ l ∈ links, l.connection ∈ g.connections := by
  rw [holding.connections_eq]
  exact fun _ member => List.mem_map_of_mem member

/-- The target of a link has the signal of its source. -/
theorem follows_of_holding {limit : DepthLimit} (point : Point)
    (deep : limit.isExceeded g.nodes.length = false) :
    ∀ l ∈ links, ∀ signal, g.portSignal limit l.connection.source point = signal →
      g.portSignal limit l.connection.target point = signal :=
  fun l member _ carried =>
    (holding.toSound.signal_connection point deep (joined_of_holding holding l member)).trans
      carried

end Holding

theorem terrainAt_simple
    (holding : g.Holding (simpleNodes noise) (simpleLinks.map Graph.Link.connection))
    (point : Point) : g.terrainAt defaultDepth point = some (simpleTerrain noise point) := by
  have sound := holding.toSound
  have deep : defaultDepth.isExceeded g.nodes.length = false := by
    rw [holding.nodes_eq]
    rfl
  have output : g.output? = some ⟨6, .terrainOutput, 700, 150, []⟩ := by
    rw [Graph.output?, Graph.outputs, holding.nodes_eq]
    rfl
  have listed := listed_of_holding holding
  have joined := joined_of_holding holding
  have follows := follows_of_holding holding point deep
  simp only [simpleNodes, List.forall_mem_cons] at listed
  simp only [simpleLinks, List.forall_mem_cons] at joined follows
  obtain ⟨position, surface, compare, solid, air, -⟩ := listed
  obtain ⟨-, -, below, above, delivered, -⟩ := joined
  obtain ⟨height, value, lower, upper, delivers, -⟩ := follows
  have decided := sound.signal_less point deep compare
    (height _ (sound.signal_height point deep position))
    (value _ (sound.signal_noise point deep surface)) below above rfl rfl
    (lower _ (sound.signal_terrain point deep solid))
    (upper _ (sound.signal_terrain point deep air))
  refine sound.terrainAt_of_signal point output delivered rfl ((delivers _ decided).trans ?_)
  exact (apply_ite Signal.terrain _ _ _).symm

theorem terrainAt_layered
    (holding : g.Holding (layeredNodes lower upper) (layeredLinks.map Graph.Link.connection))
    (point : Point) : g.terrainAt defaultDepth point = some (layeredTerrain lower upper point) := by
  have sound := holding.toSound
  have deep : defaultDepth.isExceeded g.nodes.length = false := by
    rw [holding.nodes_eq]
    rfl
  have output : g.output? = some ⟨9, .terrainOutput, 800, 200, []⟩ := by
    rw [Graph.output?, Graph.outputs, holding.nodes_eq]
    rfl
  have listed := listed_of_holding holding
  have joined := joined_of_holding holding
  have follows := follows_of_holding holding point deep
  simp only [layeredNodes, List.forall_mem_cons] at listed
  simp only [layeredLinks, List.forall_mem_cons] at joined follows
  obtain ⟨position, hills, compare, stone, water, waterCompare, level, air, -⟩ := listed
  obtain ⟨-, -, -, -, below, above, waterBelow, waterAbove, delivered, -⟩ := joined
  obtain ⟨height, waterHeight, waterValue, value, underground, overground, underwater, overwater,
    delivers, -⟩ := follows
  have flooded := sound.signal_less point deep waterCompare
    (waterHeight _ (sound.signal_height point deep position))
    (waterValue _ (sound.signal_noise point deep level)) waterBelow waterAbove rfl rfl
    (underwater _ (sound.signal_terrain point deep water))
    (overwater _ (sound.signal_terrain point deep air))
  have decided := sound.signal_less point deep compare
    (height _ (sound.signal_height point deep position))
    (value _ (sound.signal_noise point deep hills)) below above rfl rfl
    (underground _ (sound.signal_terrain point deep stone)) (overground _ flooded)
  refine sound.terrainAt_of_signal point output delivered rfl ((delivers _ decided).trans ?_)
  rw [layeredTerrain, apply_ite Signal.terrain, apply_ite Signal.terrain]

theorem findings_simple :
    (Graph.bareOf (simpleNodes hills) (simpleLinks.map Graph.Link.connection)).findings =
      ⟨[], []⟩ := by
  decide +kernel

theorem findings_layered :
    (Graph.bareOf (layeredNodes hills hills) (layeredLinks.map Graph.Link.connection)).findings =
      ⟨[], []⟩ := by
  decide +kernel

theorem build_eq_ok {name : String} {edit : Edit Unit} (listed : all.get? name = some edit)
    {seed : Int} (done : (Graph.empty seed).run edit = (g, .ok ())) : build name seed = .ok g := by
  unfold build
  rw [listed]
  dsimp only
  rw [done]
  rfl

/-- Whatever the seed is, both templates are built, validation finds nothing in them and they have a
script. At every point, the simple one is stone below the noise that it stores and air elsewhere.
The layered one is stone below its first noise, the hills; elsewhere it is water below its second
noise, which is of scale zero, and air above. -/
theorem build_means (seed : Int) :
    (∃ g noise, build "simple" seed = .ok g ∧ Clean g ∧ noises g = [noise] ∧
      ∀ point, g.terrainAt defaultDepth point = some (simpleTerrain noise point)) ∧
    ∃ g hills level, build "layered" seed = .ok g ∧ Clean g ∧ noises g = [hills, level] ∧
      level.scale = 0 ∧
      ∀ point, g.terrainAt defaultDepth point = some (layeredTerrain hills level point) := by
  constructor
  · obtain ⟨g, noiseSeed, done, holding⟩ := run_simple seed
    refine ⟨g, surface noiseSeed, build_eq_ok rfl done,
      clean_of_findings holding.toSound
        ((holding.findings_eq (bare_simpleNodes _)).trans findings_simple), ?_,
      terrainAt_simple holding⟩
    rw [noises, holding.nodes_eq]
    rfl
  · obtain ⟨g, levelSeed, done, holding⟩ := run_layered seed
    refine ⟨g, hills, level levelSeed, build_eq_ok rfl done,
      clean_of_findings holding.toSound
        ((holding.findings_eq (bare_layeredNodes _ _)).trans findings_layered), ?_, rfl,
      terrainAt_layered holding⟩
    rw [noises, holding.nodes_eq]
    rfl

end Template

end Landform
