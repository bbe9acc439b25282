import CooperativeTsn.Flow.Request
import CooperativeTsn.Infra.JsonParser

/-!
# The request file

`TSNschedGrpcGateScheduleConfigurator::writeInputToFile`. The request is printed as JSON, with two
blanks more for each level. What is printed denotes the request, whatever its shape.

* `jsonOf` — the JSON value of a tree
* `derives_printJson` — what is printed of a tree, wherever it stands in a text
* `printJson_denotes` — the text is accepted by the grammar, and denotes the tree and nothing else
* `writeInputToFile_denotes` — so does the file
-/

namespace CooperativeTsn

open Infra.Runs Infra.JsonText

/-! ## Printing -/

/-- `std::string indent(level * 2, ' ')` -/
def indent (level : Nat) : String := String.ofList (List.replicate (level * 2) ' ')

/-- What is printed before an element, but for the indentation. -/
def separator (i : Nat) : String := if i ≠ 0 then ",\n" else ""

mutual

def printJson (ops : ValueOps) : Value → Nat → String
  | .bool b, _ => ops.str (.bool b)
  | .int n unit, _ => ops.str (.int n unit)
  | .double x unit, _ => ops.str (.double x unit)
  | .string s, _ => ops.str (.string s)
  | .array values, level =>
    if values.length = 0 then "[]"
    else "[\n" ++ printArray ops values 0 level ++ "\n" ++ indent level ++ "]"
  | .map fields, level =>
    if fields.length = 0 then "\x7b\x7d"
    else "\x7b\n" ++ printMap ops fields 0 level ++ "\n" ++ indent level ++ "\x7d"

/-- The loop over the elements of an array, from the `i`-th on. -/
def printArray (ops : ValueOps) : List Value → Nat → Nat → String
  | [], _, _ => ""
  | value :: values, i, level =>
    separator i ++ indent level ++ "  " ++ printJson ops value (level + 1) ++
      printArray ops values (i + 1) level

/-- The loop over the fields of a map. -/
def printMap (ops : ValueOps) : List (String × Value) → Nat → Nat → String
  | [], _, _ => ""
  | (key, value) :: fields, i, level =>
    separator i ++ indent level ++ " \"" ++ key ++ "\": " ++ printJson ops value (level + 1) ++
      printMap ops fields (i + 1) level

end

/-! ## What a tree denotes -/

mutual

/-- The JSON value of a tree. Units are not written. -/
def jsonOf : Value → Json
  | .bool b => .bool b
  | .int n _ => .number n
  | .double x _ => .number x
  | .string s => .string s
  | .array values => .array (jsonItems values)
  | .map fields => .object (jsonMembers fields)

def jsonItems : List Value → List Json
  | [] => []
  | value :: values => jsonOf value :: jsonItems values

def jsonMembers : List (String × Value) → List (String × Json)
  | [] => []
  | (key, value) :: fields => (key, jsonOf value) :: jsonMembers fields

end

theorem jsonItems_eq : ∀ values : List Value, jsonItems values = values.map jsonOf
  | [] => rfl
  | value :: values => by rw [jsonItems, jsonItems_eq values, List.map_cons]

theorem jsonMembers_eq : ∀ fields : List (String × Value),
    jsonMembers fields = fields.map fun field => (field.1, jsonOf field.2)
  | [] => rfl
  | (key, value) :: fields => by rw [jsonMembers, jsonMembers_eq fields, List.map_cons]

/-- Neither an array nor a map. -/
def Value.isScalar : Value → Bool
  | .array _ => false
  | .map _ => false
  | _ => true

/-- A tree whose scalars are printed as the JSON tokens of their values, with keys that need no
escapes. -/
inductive Writable (ops : ValueOps) : Value → Prop
  | scalar {value : Value} : value.isScalar = true →
      Token (ops.str value).toList (jsonOf value) → Writable ops value
  | array {values : List Value} : (∀ value ∈ values, Writable ops value) →
      Writable ops (.array values)
  | map {fields : List (String × Value)} :
      (∀ field ∈ fields, PlainText field.1.toList) →
      (∀ field ∈ fields, Writable ops field.2) → Writable ops (.map fields)

/-! ## The text -/

variable {ops : ValueOps} {value : Value}

theorem printJson_scalar (h : value.isScalar = true) (level : Nat) :
    printJson ops value level = ops.str value := by
  cases value with
  | array values => cases h
  | map fields => cases h
  | bool b => rw [printJson]
  | int n unit => rw [printJson]
  | double x unit => rw [printJson]
  | string s => rw [printJson]

/-- The characters before an element of an array. -/
def lineStart (level : Nat) (more : List Char) : List Char :=
  '\n' :: ((indent level).toList ++ more)

theorem ws_lineStart {level : Nat} {more : List Char} (h : Ws more) :
    Ws (lineStart level more) := by
  have hindent : Ws (indent level).toList := fun c hc => by
    rw [indent, String.toList_ofList] at hc
    rw [List.eq_of_mem_replicate hc]
    rfl
  refine List.forall_mem_cons.mpr ⟨rfl, fun c hc => ?_⟩
  rcases List.mem_append.mp hc with hc | hc
  · exact hindent c hc
  · exact h c hc

theorem printArray_toList (level : Nat) : ∀ (values : List Value) (i : Nat),
    (printArray ops values (i + 1) level).toList = values.flatMap fun value =>
      ',' :: (lineStart level [' ', ' '] ++ (printJson ops value (level + 1)).toList)
  | [], _ => by
    rw [printArray]
    rfl
  | value :: values, i => by
    rw [printArray, List.flatMap_cons, ← printArray_toList level values (i + 1)]
    simp [separator, lineStart]

/-- A key in quotes, a colon and the value. -/
def memberText (ops : ValueOps) (level : Nat) (field : String × Value) : List Char :=
  '"' :: (field.1.toList ++ ['"']) ++ ([] ++ ':' :: ([' '] ++
    (printJson ops field.2 (level + 1)).toList))

theorem printMap_toList (level : Nat) : ∀ (fields : List (String × Value)) (i : Nat),
    (printMap ops fields (i + 1) level).toList = fields.flatMap fun field =>
      ',' :: (lineStart level [' '] ++ memberText ops level field)
  | [], _ => by
    rw [printMap]
    rfl
  | (key, value) :: fields, i => by
    rw [printMap, List.flatMap_cons, ← printMap_toList level fields (i + 1)]
    simp [separator, lineStart, memberText]

/-- The text of an array: the first element has no comma before it. -/
theorem printJson_array (value : Value) (values : List Value) (level : Nat) (rest : List Char) :
    (printJson ops (.array (value :: values)) level).toList ++ rest =
      '[' :: (lineStart level [' ', ' '] ++ ((printJson ops value (level + 1)).toList ++
        ((values.flatMap fun value => ',' :: (lineStart level [' ', ' '] ++
          (printJson ops value (level + 1)).toList)) ++ (lineStart level [] ++ ']' :: rest)))) := by
  rw [printJson, if_neg (by simp), printArray, ← printArray_toList level values 0]
  simp [separator, lineStart]

theorem printJson_map (field : String × Value) (fields : List (String × Value)) (level : Nat)
    (rest : List Char) :
    (printJson ops (.map (field :: fields)) level).toList ++ rest =
      '\x7b' :: (lineStart level [' '] ++ (memberText ops level field ++
        ((fields.flatMap fun field => ',' :: (lineStart level [' '] ++
          memberText ops level field)) ++ (lineStart level [] ++ '\x7d' :: rest)))) := by
  rw [printJson, if_neg (by simp), printMap, ← printMap_toList level fields 0]
  simp [separator, lineStart, memberText]

/-- **What is printed of a tree** denotes it, wherever it stands in a text. -/
theorem derives_printJson (h : Writable ops value) (level : Nat) (rest : List Char) :
    Derives (.one .value) ((printJson ops value level).toList ++ rest) (jsonOf value) rest := by
  -- on the tree: a child is printed one level deeper, and the rest is what follows it in the text
  induction h generalizing level rest with
  | scalar hscalar htoken =>
    rw [printJson_scalar hscalar]
    exact .token htoken
  | @array values _ ih =>
    rw [jsonOf, jsonItems_eq]
    cases values with
    | nil =>
      rw [printJson, if_pos List.length_nil]
      exact .empty .value ws_nil
    | cons value values =>
      rw [printJson_array]
      exact derives_bracketed (ws_lineStart (by decide : Ws [' ', ' '])) (ws_lineStart ws_nil)
        fun value hvalue => ih value hvalue (level + 1)
  | @map fields hkeys _ ih =>
    rw [jsonOf, jsonMembers_eq]
    cases fields with
    | nil =>
      rw [printJson, if_pos List.length_nil]
      exact .empty .member ws_nil
    | cons field fields =>
      have hmember : ∀ field' ∈ field :: fields, ∀ rest, Derives (.one .member)
          (memberText ops level field' ++ rest) (field'.1, jsonOf field'.2) rest := by
        intro field' hfield' rest
        have hvalue := ih field' hfield' (level + 1) rest
        have hderives := Derives.member (isString_of_plain (hkeys field' hfield')) ws_nil
          (by decide : Ws [' ']) hvalue
        simpa [memberText] using hderives
      rw [printJson_map]
      exact derives_bracketed (ws_lineStart (by decide : Ws [' '])) (ws_lineStart ws_nil) hmember

theorem text_printJson (h : Writable ops value) (level : Nat) :
    Text (printJson ops value level).toList (jsonOf value) := by
  have hderives := derives_printJson h level []
  rw [List.append_nil] at hderives
  exact .value ws_nil hderives ws_nil

/-- **The text that `printJson` writes** is JSON. It denotes the tree, and nothing else: a parser
reads the tree back, with the elements of each array and the keys of each map as they were. -/
theorem printJson_denotes (h : Writable ops value) (level : Nat) :
    (∀ j, Text (printJson ops value level).toList j ↔ j = jsonOf value) ∧
      parseText (printJson ops value level).toList = some (jsonOf value) := by
  have htext := text_printJson h level
  refine ⟨fun j => ⟨fun hj => hj.unique htext, ?_⟩, parseText_of_text htext⟩
  rintro rfl
  exact htext

/-! ## The file -/

section

variable {Module : Type} {tree : ModuleTree Module} {configuration : List Value}
  {gateCycleDuration : Int} {input : Input Module}

/-- What is in the file afterwards, if it can be opened. -/
def writeInputToFile (tree : ModuleTree Module) (ops : ValueOps) (opens : String → Bool)
    (configuration : List Value) (gateCycleDuration : Int) (input : Input Module)
    (fileName : String) : Except SimError String := do
  let json ← convertInputToJson tree ops configuration gateCycleDuration input
  ensure (opens fileName) (.runtimeError ("Cannot open file " ++ fileName))
  pure (printJson ops (.map json) 0)

/-- A double whose text is the number. -/
def PrintsExactly (ops : ValueOps) (x : Rat) : Prop :=
  IsNumber (ops.str (.double x "")).toList x

/-- The scalars of the request are printed as JSON tokens. -/
structure PrintsTokens (ops : ValueOps) (gateCycleDuration : Int) (input : Input Module) :
    Prop where
  string : ∀ s, IsString (ops.str (.string s)).toList s
  int : ∀ n, IsNumber (ops.str (.int n "")).toList n
  cycle : PrintsExactly ops (gateCycleDuration / 1000000)
  port : ∀ node ∈ input.switches, ∀ port ∈ node.ports,
    PrintsExactly ops (port.propagationTime * 1000000) ∧ PrintsExactly ops (port.datarate / 1000000)
  interval : ∀ flow ∈ input.flows,
    PrintsExactly ops (flow.startApplication.packetInterval / 1000000)

theorem writable_record {fields : List (String × Value)}
    (hkeys : ∀ key ∈ fields.map Prod.fst, PlainText key.toList)
    (hvalues : ∀ value ∈ fields.map Prod.snd, Writable ops value) :
    Writable ops (.map (ValueMap.record fields)) :=
  .map (fun _ hfield => hkeys _ (List.mem_map_of_mem (ValueMap.mem_record hfield)))
    fun _ hfield => hvalues _ (List.mem_map_of_mem (ValueMap.mem_record hfield))

section

variable (h : PrintsTokens ops gateCycleDuration input)
include h

theorem writable_string (s : String) : Writable ops (.string s) :=
  .scalar rfl (.string (h.string s))

theorem writable_int (n : Int) : Writable ops (.int n "") :=
  .scalar rfl (.number (h.int n))

omit h in
theorem writable_double {x : Rat} (hx : PrintsExactly ops x) : Writable ops (.double x "") :=
  .scalar rfl (.number hx)

theorem jsonDevice_writable (device : Node Module) : Writable ops (jsonDevice tree device) := by
  refine writable_record ?_ ?_
  · simp only [List.map_cons, List.map_nil]
    decide
  · simp [writable_string h]

theorem jsonSwitch_writable {node : Node Module} (hnode : node ∈ input.switches) :
    Writable ops (jsonSwitch tree gateCycleDuration node) := by
  have hport : ∀ port ∈ node.ports, Writable ops (jsonPort tree gateCycleDuration node port) := by
    intro port hmem
    have hdoubles := h.port node hnode port hmem
    refine writable_record ?_ ?_
    · simp only [List.map_cons, List.map_nil]
      decide
    · simp [writable_string h, writable_int h, writable_double h.cycle,
        writable_double hdoubles.1, writable_double hdoubles.2]
  refine writable_record ?_ ?_
  · simp only [List.map_cons, List.map_nil]
    decide
  · have hports : Writable ops (.array (node.ports.map (jsonPort tree gateCycleDuration node))) :=
      .array (List.forall_mem_map.mpr hport)
    simp [writable_string h, hports]

theorem jsonHops_writable {fragments : List (PathFragment Module)} {hops : List Value}
    (hhops : jsonHops tree fragments = .ok hops) : ∀ hop ∈ hops, Writable ops hop := by
  simp only [jsonHops, bind_eq_ok, pure_eq_ok] at hhops
  obtain ⟨_, -, rfl⟩ := hhops
  intro hop hmem
  obtain ⟨_, -, hmem⟩ := List.mem_flatMap.mp hmem
  obtain ⟨_, -, rfl⟩ := List.mem_map.mp hmem
  refine writable_record ?_ ?_
  · simp only [List.map_cons, List.map_nil]
    decide
  · simp [writable_string h]

theorem jsonFlow_writable {flow : Flow Module} (hflow : flow ∈ input.flows) {fields : ValueMap}
    (hfields : jsonFlow tree ops configuration flow = .ok fields) :
    Writable ops (.map fields) := by
  simp only [jsonFlow, bind_eq_ok, pure_eq_ok] at hfields
  obtain ⟨startTime, -, hops, hhops, rfl⟩ := hfields
  have hhop : Writable ops (.array hops) := .array (jsonHops_writable h hhops)
  have hends : Writable ops (.array [.string (tree.getFullName flow.endDevice)]) :=
    .array (List.forall_mem_singleton.mpr (writable_string h _))
  refine writable_record ?_ ?_
  · rw [timeFields]
    split
    all_goals
      simp only [List.map_append, List.map_cons, List.map_nil]
      decide
  · rw [timeFields]
    split
    all_goals
      simp [writable_string h, writable_int h, writable_double (h.interval flow hflow), hends, hhop]

theorem convertInputToJson_writable {json : ValueMap}
    (hjson : convertInputToJson tree ops configuration gateCycleDuration input = .ok json) :
    Writable ops (.map json) := by
  simp only [convertInputToJson, bind_eq_ok, pure_eq_ok] at hjson
  obtain ⟨flows, hflows, rfl⟩ := hjson
  have hdevices : Writable ops (.array (input.devices.map (jsonDevice tree))) :=
    .array (List.forall_mem_map.mpr fun device _ => jsonDevice_writable h device)
  have hswitches : Writable ops
      (.array (input.switches.map (jsonSwitch tree gateCycleDuration))) :=
    .array (List.forall_mem_map.mpr fun node hnode => jsonSwitch_writable h hnode)
  have hflow : Writable ops (.array (flows.map .map)) := by
    refine .array (List.forall_mem_map.mpr fun fields hfields => ?_)
    obtain ⟨i, hi⟩ := List.mem_iff_getElem?.mp hfields
    obtain ⟨flow, hflow, hmade⟩ := getElem?_of_mapM hflows hi
    exact jsonFlow_writable h (List.mem_of_getElem? hflow) hmade
  refine writable_record ?_ ?_
  · simp only [List.map_cons, List.map_nil]
    decide
  · simp [hdevices, hswitches, hflow]

/-- **Every request is written as JSON** that denotes it. -/
theorem writeInputToFile_denotes {opens : String → Bool} {fileName text : String}
    (hwrite : writeInputToFile tree ops opens configuration gateCycleDuration input fileName =
      .ok text) :
    ∃ json, convertInputToJson tree ops configuration gateCycleDuration input = .ok json ∧
      parseText text.toList = some (jsonOf (.map json)) := by
  simp only [writeInputToFile, bind_eq_ok, pure_eq_ok] at hwrite
  obtain ⟨json, hjson, _, -, rfl⟩ := hwrite
  exact ⟨json, hjson, parseText_of_text (text_printJson (convertInputToJson_writable h hjson) 0)⟩

end

end

/-! ## A small request -/

/-- A request with an empty array, an empty map and a flow. -/
def smallRequest : Value :=
  .map [("devices", .array []), ("flows", .array [.map [("name", .string "a"),
    ("packetSize", .int 800 "")]]), ("options", .map []), ("retry", .bool true)]

theorem printJson_denotes_smallRequest :
    (∀ j, Text (printJson basicOps smallRequest 2).toList j ↔ j = jsonOf smallRequest) ∧
      parseText (printJson basicOps smallRequest 2).toList = some (jsonOf smallRequest) := by
  have hname : Writable basicOps (.string "a") := by
    have htext : (basicOps.str (.string "a")).toList = '"' :: ("a".toList ++ ['"']) := by
      decide +kernel
    refine .scalar rfl ?_
    rw [htext]
    exact .string (isString_of_plain (by decide))
  have hsize : Writable basicOps (.int 800 "") := by
    have htext : (basicOps.str (.int 800 "")).toList = ['8', '0', '0'] ++ ([] ++ []) := by
      decide +kernel
    have hnumber := IsUnsigned.parts (.digits (by decide : Digits ['8', '0', '0']) (by decide))
      .none .none
    have hvalue : ((natOf ['8', '0', '0'] : Rat) + 0) * 10 ^ (0 : Int) = (800 : Int) := by
      decide +kernel
    rw [hvalue, ← htext] at hnumber
    exact .scalar rfl (.number (.unsigned hnumber))
  have hflow : Writable basicOps (.map [("name", .string "a"), ("packetSize", .int 800 "")]) :=
    .map (by decide) (by simp [hname, hsize])
  have hflows : Writable basicOps (.array [.map [("name", .string "a"),
      ("packetSize", .int 800 "")]]) := .array (by simp [hflow])
  have hdevices : Writable basicOps (.array []) := .array (by simp)
  have hoptions : Writable basicOps (.map []) := .map (by simp) (by simp)
  have hretry : Writable basicOps (.bool true) := .scalar rfl .true
  exact printJson_denotes (.map (by decide) (by simp [hdevices, hflows, hoptions, hretry])) 2

end CooperativeTsn
