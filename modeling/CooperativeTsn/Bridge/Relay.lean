import CooperativeTsn.Bridge.StaticTables

/-!
# Frames in a network of configured bridges

`RelayInterfaceSelector` sends a frame on by the forwarding table of its bridge, and
`MacForwardingTableConfigurator` has written the tables of all bridges. While the entries of
the tables are not aged, a frame for a host takes a shortest way through the bridges, however often
groups have changed in between.

* `pushPacket_not_incoming` — no copy leaves at the interface that the frame came in on
* `Installed.way` — where a search sends the frames of a bridge
* `frames_carried` — a frame for an interface of a host arrives there
* `entry_iff` — which bridges have an entry, and where it leads if the interface is out of reach
-/

namespace CooperativeTsn

open NodeGraph Infra.Runs Infra.ShortestPath MacForwardingTable

variable {Host Mac Group : Type}

/-! ## The relay -/

/-- The destination address of a frame. -/
inductive Destination (Mac Group : Type) where
  | broadcast
  | multicast (address : Group)
  | unicast (address : Mac)

/-- The interface table of a bridge, by the ids of its interfaces. -/
structure InterfaceTable where
  ids : List Int
  /-- not a loopback interface, and for broadcasts -/
  isForwardingInterface : Int → Bool

/-- The interfaces that copies of a packet are sent to, and whether the packet is dropped. -/
structure Relayed where
  sent : List Int
  dropped : Bool
deriving DecidableEq

namespace InterfaceTable

def broadcastPacket (interfaces : InterfaceTable) (incoming : Option Int) : List Int :=
  interfaces.ids.filter fun id => incoming ≠ some id ∧ interfaces.isForwardingInterface id

def sendPacket (interfaces : InterfaceTable) (id : Int) : Except SimError Int := do
  ensure (id ∈ interfaces.ids) .nullPointer
  pure id

/-- `RelayInterfaceSelector::pushPacket`. The tags of the packet are arguments. -/
def pushPacket (interfaces : InterfaceTable) (now : Int) (table : MacForwardingTable Mac Group)
    (interfaceReq interfaceInd : Option Int) (vlanReq : Option Nat)
    (destinationAddress : Destination Mac Group) : Except SimError Relayed :=
  match interfaceReq with
  | some interfaceId => do
    let id ← interfaces.sendPacket interfaceId
    pure ⟨[id], false⟩
  | none =>
    let vlanId := vlanReq.getD 0
    match destinationAddress with
    | .broadcast => pure ⟨interfaces.broadcastPacket interfaceInd, false⟩
    | .multicast address =>
      let outgoingInterfaceIds := table.getMulticastAddressForwardingInterfaces address vlanId
      if outgoingInterfaceIds = [] then pure ⟨interfaces.broadcastPacket interfaceInd, false⟩
      else do
        let sent ← (outgoingInterfaceIds.filter (interfaceInd ≠ some ·)).mapM interfaces.sendPacket
        pure ⟨sent, false⟩
    | .unicast address =>
      let outgoingInterfaceId := table.getUnicastAddressForwardingInterface now address vlanId
      if interfaceInd = some outgoingInterfaceId then pure ⟨[], true⟩
      else if outgoingInterfaceId ≠ -1 then do
        let id ← interfaces.sendPacket outgoingInterfaceId
        pure ⟨[id], false⟩
      else pure ⟨interfaces.broadcastPacket interfaceInd, false⟩

variable {interfaces : InterfaceTable} {now : Int} {table : MacForwardingTable Mac Group}
  {interfaceInd : Option Int} {vlanReq : Option Nat} {id : Int} {relayed : Relayed}

theorem sendPacket_eq_ok {id' : Int} :
    interfaces.sendPacket id = .ok id' ↔ id ∈ interfaces.ids ∧ id = id' := by
  simp only [sendPacket, bind_eq_ok, ensure_eq_ok, pure_eq_ok, exists_const]

theorem broadcastPacket_not_incoming (h : id ∈ interfaces.broadcastPacket interfaceInd) :
    interfaceInd ≠ some id := by
  rw [broadcastPacket, List.mem_filter, decide_eq_true_eq] at h
  exact h.2.1

/-- A frame never leaves at the interface that it came in on. -/
theorem pushPacket_not_incoming {destinationAddress : Destination Mac Group}
    (h : interfaces.pushPacket now table none interfaceInd vlanReq destinationAddress =
      .ok relayed) (hid : id ∈ relayed.sent) : interfaceInd ≠ some id := by
  cases destinationAddress with
  | broadcast =>
    rw [pushPacket, pure_eq_ok] at h
    subst h
    exact broadcastPacket_not_incoming hid
  | multicast address =>
    simp only [pushPacket] at h
    split at h
    · rw [pure_eq_ok] at h
      subst h
      exact broadcastPacket_not_incoming hid
    · simp only [bind_eq_ok, pure_eq_ok] at h
      obtain ⟨sent, hsent, rfl⟩ := h
      have heq := mapM_eq_map (g := fun id => id) (fun a b hab => (sendPacket_eq_ok.mp hab).2.symm)
        hsent
      rw [List.map_id'] at heq
      subst heq
      rw [List.mem_filter, decide_eq_true_eq] at hid
      exact hid.2
  | unicast address =>
    simp only [pushPacket] at h
    split at h
    · rw [pure_eq_ok] at h
      subst h
      cases hid
    · next hne =>
      split at h
      · simp only [bind_eq_ok, sendPacket_eq_ok, pure_eq_ok] at h
        obtain ⟨_, ⟨-, rfl⟩, rfl⟩ := h
        rw [List.mem_singleton] at hid
        rwa [hid]
      · rw [pure_eq_ok] at h
        subst h
        exact broadcastPacket_not_incoming hid

/-- A frame for an address that the table knows leaves once. -/
theorem pushPacket_unicast {address : Mac} (interfaceInd : Option Int)
    (hlookup : table.getUnicastAddressForwardingInterface now address 0 = id) (hne : id ≠ -1)
    (hmem : id ∈ interfaces.ids) (hincoming : interfaceInd ≠ some id) :
    interfaces.pushPacket now table none interfaceInd none (.unicast address) =
      .ok ⟨[id], false⟩ := by
  simp only [pushPacket, Option.getD_none, hlookup, if_neg hincoming, if_pos hne]
  exact bind_eq_ok.mpr ⟨id, sendPacket_eq_ok.mpr ⟨hmem, rfl⟩, rfl⟩

end InterfaceTable

/-! ## Ways -/

namespace Wiring

section

variable [DecidableEq Host]

/-- A way from a bridge to the interface of an endpoint, through bridges. -/
inductive Way (wiring : Wiring Host Mac) (d : Endpoint Host Mac) :
    Host → List (TopologyLink Host) → Prop
  | last {l : TopologyLink Host} : l ∈ linksAt wiring.nodes .dest d.node →
      wiring.destinationInterface l = some d.interface → Way wiring d l.srcNode [l]
  | hop {l : TopologyLink Host} {ls : List (TopologyLink Host)} :
      l ∈ linksAt wiring.nodes .dest l.destNode → wiring.isBridgeNode l.destNode = true →
      Way wiring d l.destNode ls → Way wiring d l.srcNode (l :: ls)

/-- A host that is at the end of a cable: a link out of it leads to where one into it comes from. -/
def Leaf (wiring : Wiring Host Mac) (host : Host) : Prop :=
  ∀ l ∈ linksAt wiring.nodes .dest host, ∀ l' ∈ linksAt wiring.nodes .source host,
    l'.destNode = l.srcNode

/-- The id of the interface at which a link begins. -/
def outPort (wiring : Wiring Host Mac) (tables : Host → MacForwardingTable Mac Group)
    (l : TopologyLink Host) : Option Int :=
  (wiring.sourceInterface l).bind (tables l.srcNode).findInterfaceByName

/-- The id of the interface at which it ends. -/
def inPort (wiring : Wiring Host Mac) (tables : Host → MacForwardingTable Mac Group)
    (l : TopologyLink Host) : Option Int :=
  (wiring.destinationInterface l).bind (tables l.destNode).findInterfaceByName

/-- The links of bridges are cables: each interface has one, in both directions. -/
structure Cabled (wiring : Wiring Host Mac) (interfaces : Host → InterfaceTable)
    (tables : Host → MacForwardingTable Mac Group) : Prop extends wiring.Named tables where
  mem_ids : ∀ b, wiring.isBridgeNode b = true → ∀ l ∈ linksAt wiring.nodes .source b, ∀ id,
    wiring.outPort tables l = some id → id ≠ -1 ∧ id ∈ (interfaces b).ids
  outPort_inj : ∀ b, wiring.isBridgeNode b = true → ∀ l ∈ linksAt wiring.nodes .source b,
    ∀ l' ∈ linksAt wiring.nodes .source b, wiring.outPort tables l = wiring.outPort tables l' →
      l = l'
  duplex : ∀ b, wiring.isBridgeNode b = true → ∀ l ∈ linksAt wiring.nodes .dest b,
    ∀ l' ∈ linksAt wiring.nodes .source b, wiring.inPort tables l = wiring.outPort tables l' →
      l'.destNode = l.srcNode

/-- The way of a frame for an address, from a node where it came in on an interface to a host. Each
bridge on the way sends it on once, over one of its links. -/
inductive Carried (wiring : Wiring Host Mac) (interfaces : Host → InterfaceTable)
    (tables : Host → MacForwardingTable Mac Group) (now : Int) (address : Mac) :
    Option Int → Host → List (TopologyLink Host) → Prop
  | host {incoming : Option Int} {h : Host} : wiring.isBridgeNode h = false →
      Carried wiring interfaces tables now address incoming h []
  | bridge {incoming : Option Int} {b : Host} {id : Int} {l : TopologyLink Host}
      {ls : List (TopologyLink Host)} : wiring.isBridgeNode b = true →
      (interfaces b).pushPacket now (tables b) none incoming none (.unicast address) =
        .ok ⟨[id], false⟩ →
      l ∈ linksAt wiring.nodes .source b →
      (∀ l' ∈ linksAt wiring.nodes .source b, wiring.outPort tables l' = some id ↔ l' = l) →
      Carried wiring interfaces tables now address (wiring.inPort tables l) l.destNode ls →
      Carried wiring interfaces tables now address incoming b (l :: ls)

/-! ## Where the frames go -/

variable {wiring : Wiring Host Mac} {d : Endpoint Host Mac}
  {weights : TopologyLink Host → WithTop Nat} {search : SearchState Host Nat}
  {route : Host → Option String} {n : Host}

theorem mem_modules_of_mem_linksAt {e : End} {l : TopologyLink Host}
    (hl : l ∈ linksAt wiring.nodes e n) : n ∈ wiring.modules := by
  obtain ⟨node, hnode, rfl, -⟩ := exists_of_mem_linksAt hl
  exact List.mem_map_of_mem hnode

/-- The first link of a node that is reached. -/
theorem Installed.first (h : wiring.Installed d weights search route) (hn : n ≠ d.node)
    (hfinite : search.dist n < ⊤) : ∃ l, (search.paths n).head? = some l ∧ l.srcNode = n ∧
      l ∈ linksAt wiring.nodes .dest l.destNode ∧ weights l = 1 ∧
      search.dist n = search.dist l.destNode + 1 := by
  obtain ⟨l, hhead, hsource, hl, hdist⟩ := h.found.first n hn hfinite
  rcases h.passable.eq l with hweight | hweight
  · exact ⟨l, hhead, hsource, hl, hweight, hweight ▸ hdist⟩
  · rw [hdist, hweight, WithTop.add_top] at hfinite
    exact absurd hfinite (lt_irrefl _)

/-- The node at the other end of the cable of a host is closer to the destination. -/
theorem Installed.leaf (h : wiring.Installed d weights search route) (hn : n ≠ d.node)
    (hleaf : wiring.Leaf n) (hfinite : search.dist n < ⊤) {l : TopologyLink Host}
    (hl : l ∈ linksAt wiring.nodes .dest n) : search.dist n = search.dist l.srcNode + 1 := by
  obtain ⟨l', hhead, -, -, -, hdist⟩ := h.first hn hfinite
  have hl' := h.found.mem_linksAt (List.mem_of_head? hhead)
  rw [hdist, hleaf l hl l' hl']

/-- No way through bridges is shorter. -/
theorem Installed.dist_le (h : wiring.Installed d weights search route)
    {ls : List (TopologyLink Host)} (hway : wiring.Way d n ls) :
    search.dist n ≤ WithTop.some ls.length := by
  induction hway with
  | last hl hinterface =>
    have hle := h.found.relaxed _ _ hl
    rw [h.weights_eq _ hl, if_neg (not_not.mpr hinterface), h.found.target] at hle
    exact hle
  | @hop l ls hl hbridge _ ih =>
    calc search.dist l.srcNode ≤ search.dist l.destNode + weights l := h.found.relaxed _ _ hl
      _ = search.dist l.destNode + 1 := by rw [h.passable.bridge l hbridge]
      _ ≤ WithTop.some ls.length + 1 := by gcongr
      _ = WithTop.some (l :: ls).length := rfl

variable {interfaces : Host → InterfaceTable} {tables : Host → MacForwardingTable Mac Group}

/-- What the search says about a bridge is what its table says. -/
structure Follows (wiring : Wiring Host Mac) (tables : Host → MacForwardingTable Mac Group)
    (now : Int) (address : Mac) (route : Host → Option String) : Prop where
  lookup : ∀ b ∈ wiring.modules, (tables b).getUnicastAddressForwardingInterface now address 0 =
    ((route b).bind (tables b).findInterfaceByName).getD (-1)

/-- What a route says about the table of a bridge. -/
theorem Follows.port {now : Int} (hfollows : wiring.Follows tables now d.address route)
    (h : wiring.Installed d weights search route) (hcabled : wiring.Cabled interfaces tables)
    {b : Host} {name : String} (hroute : route b = some name) :
    ∃ l id, (search.paths b).head? = some l ∧ wiring.outPort tables l = some id ∧
      (tables b).getUnicastAddressForwardingInterface now d.address 0 = id ∧
      id ≠ -1 ∧ id ∈ (interfaces b).ids := by
  obtain ⟨-, hbridge, l, hhead, hname⟩ := h.link hroute
  have hl := h.found.mem_linksAt (List.mem_of_head? hhead)
  have hsource : l.srcNode = b := linksAt_node wiring.wellLinked hl
  obtain ⟨id, hid⟩ := Option.ne_none_iff_exists'.mp
    (hcabled.findInterfaceByName b hbridge l hl name hname)
  have hport : wiring.outPort tables l = some id := by
    rw [outPort, hname, Option.bind_some, hsource, hid]
  refine ⟨l, id, hhead, hport, ?_, hcabled.mem_ids b hbridge l hl id hport⟩
  rw [hfollows.lookup b (mem_modules_of_mem_linksAt hl), hroute, Option.bind_some, hid]
  rfl

/-- **The frames of a bridge that is reached arrive over a shortest way.** -/
theorem Installed.way (h : wiring.Installed d weights search route) {now : Int}
    (hhost : wiring.isBridgeNode d.node = false) (hcabled : wiring.Cabled interfaces tables)
    (hfollows : wiring.Follows tables now d.address route)
    (hleaf : ∀ host, wiring.isBridgeNode host = false → host ≠ d.node → wiring.Leaf host) :
    ∀ (k : Nat) {b : Host} (incoming : Option Int), wiring.isBridgeNode b = true →
      search.dist b = k →
      (∀ l ∈ linksAt wiring.nodes .source b, incoming ≠ none →
        incoming = wiring.outPort tables l → ¬ search.dist l.destNode < search.dist b) →
      ∃ ls, wiring.Carried interfaces tables now d.address incoming b ls ∧ wiring.Way d b ls ∧
        ls.length = k ∧
        (b :: ls.map TopologyLink.destNode).Pairwise fun m m' => search.dist m' < search.dist m := by
  intro k
  induction k with
  | zero =>
    intro b incoming hbridge hdist _
    have hne : b ≠ d.node := fun heq => by rw [heq, hhost] at hbridge; cases hbridge
    obtain ⟨l, -, -, -, -, hstep⟩ := h.first hne (by rw [hdist]; exact WithTop.coe_lt_top _)
    rw [hdist] at hstep
    exact absurd hstep.symm (by simp)
  | succ k ih =>
    intro b incoming hbridge hdist hincoming
    have hne : b ≠ d.node := fun heq => by rw [heq, hhost] at hbridge; cases hbridge
    obtain ⟨l, hhead, rfl, hl, hweight, hstep⟩ :=
      h.first hne (by rw [hdist]; exact WithTop.coe_lt_top _)
    have hlsource := h.found.mem_linksAt (List.mem_of_head? hhead)
    have hdest : search.dist l.destNode = k := by
      rw [hdist] at hstep
      exact (WithTop.add_right_cancel WithTop.one_ne_top hstep).symm
    have hlt : search.dist l.destNode < search.dist l.srcNode := by
      rw [hdist, hdest]
      exact WithTop.coe_lt_coe.mpr k.lt_succ_self
    -- the relay finds the interface of the first link
    obtain ⟨name, hname⟩ :=
      Option.ne_none_iff_exists'.mp (hcabled.sourceInterface _ hbridge l hlsource)
    have hroute : route l.srcNode = some name := by
      rw [h.route, firstInterface, if_pos ⟨hne, hbridge⟩, hhead, Option.bind_some, hname]
    obtain ⟨l', id, hhead', hport, hlookup, hid, hmem⟩ := hfollows.port h hcabled hroute
    obtain rfl : l = l' := Option.some.inj (hhead.symm.trans hhead')
    have hpush := InterfaceTable.pushPacket_unicast incoming hlookup hid hmem
      fun heq => hincoming l hlsource (by rw [heq]; simp) (heq.trans hport.symm) hlt
    have honly : ∀ l' ∈ linksAt wiring.nodes .source l.srcNode,
        wiring.outPort tables l' = some id ↔ l' = l := by
      intro l' hl'
      constructor
      · intro h'
        exact hcabled.outPort_inj _ hbridge l' hl' l hlsource (h'.trans hport.symm)
      · rintro rfl
        exact hport
    by_cases hd : l.destNode = d.node
    · rw [hd] at hl
      refine ⟨[l], .bridge hbridge hpush hlsource honly (.host (by rw [hd, hhost])),
        .last hl ?_, ?_, ?_⟩
      · -- a link into the host that can be passed is one to the interface
        rw [h.weights_eq l hl] at hweight
        by_contra hinterface
        rw [if_pos hinterface] at hweight
        cases hweight
      · rw [hd, h.found.target] at hdest
        have : k = 0 := WithTop.coe_eq_zero.mp hdest.symm
        simp [this]
      · simpa using hlt
    · have hbridge' : wiring.isBridgeNode l.destNode = true := by
        by_contra hbridge'
        rw [Bool.not_eq_true] at hbridge'
        have hback := h.leaf hd (hleaf _ hbridge' hd) (hlt.trans_le le_top) hl
        rw [hdest, hdist] at hback
        have : k = k + 1 + 1 := WithTop.coe_inj.mp hback
        omega
      obtain ⟨ls, hcarried, hway, hlength, hfalls⟩ := ih (wiring.inPort tables l) hbridge'
        hdest fun l' hl' _ heq => by
          -- the interface that the frame came in on leads back
          rw [hcabled.duplex _ hbridge' l hl l' hl' heq]
          exact hlt.asymm
      refine ⟨l :: ls, .bridge hbridge hpush hlsource honly hcarried, .hop hl hbridge' hway,
        by rw [List.length_cons, hlength], ?_⟩
      rw [List.map_cons]
      refine List.pairwise_cons.mpr ⟨fun m hm => ?_, hfalls⟩
      rcases List.mem_cons.mp hm with rfl | hm
      · exact hlt
      · exact ((List.pairwise_cons.mp hfalls).1 m hm).trans hlt

/-- A bridge that is not reached has links to other interfaces of the host, or none. -/
theorem Installed.unreached (h : wiring.Installed d weights search route)
    (hleaf : ∀ host, wiring.isBridgeNode host = false → host ≠ d.node → wiring.Leaf host)
    {b : Host} (hb : ¬ search.dist b < ⊤) {l : TopologyLink Host} (hl : l ∈ search.paths b) :
    l ∈ linksAt wiring.nodes .dest d.node ∧ l.srcNode = b ∧
      wiring.destinationInterface l ≠ some d.interface := by
  obtain ⟨rfl, hl, hdest⟩ := (h.found.mem_paths _ _).mp hl
  have hweight : weights l ≠ 1 := by
    intro hweight
    have hle := h.found.relaxed _ _ hl
    rw [hweight] at hle
    exact hb (hle.trans_lt (WithTop.add_lt_top.mpr ⟨hdest, WithTop.one_lt_top⟩))
  -- links into bridges keep their weights
  have hhost : wiring.isBridgeNode l.destNode = false := by
    rw [← Bool.not_eq_true]
    exact fun hbridge => hweight (h.passable.bridge l hbridge)
  have hd : l.destNode = d.node := by
    by_contra hd
    have hback := h.leaf hd (hleaf _ hhost hd) hdest hl
    rw [hback] at hdest
    exact hb (WithTop.add_lt_top.mp hdest).1
  rw [hd] at hl
  refine ⟨hl, rfl, fun hinterface => hweight ?_⟩
  rw [h.weights_eq l hl, if_neg (not_not.mpr hinterface)]

/-- A bridge has a route if it is reached, or if there is a cable between it and the destination. -/
theorem Installed.route_ne_none (h : wiring.Installed d weights search route)
    (hconf : wiring.Configurable)
    (hleaf : ∀ host, wiring.isBridgeNode host = false → host ≠ d.node → wiring.Leaf host)
    {b : Host} (hbridge : wiring.isBridgeNode b = true) (hne : b ≠ d.node) :
    route b ≠ none ↔ search.dist b < ⊤ ∨ ∃ l ∈ linksAt wiring.nodes .dest d.node, l.srcNode = b := by
  constructor
  · intro hsome
    by_cases hfinite : search.dist b < ⊤
    · exact .inl hfinite
    · obtain ⟨name, hname⟩ := Option.ne_none_iff_exists'.mp hsome
      obtain ⟨-, -, l, hhead, -⟩ := h.link hname
      obtain ⟨hl, hsource, -⟩ := h.unreached hleaf hfinite (List.mem_of_head? hhead)
      exact .inr ⟨l, hl, hsource⟩
  · intro hor
    have hpaths : ∃ l, (search.paths b).head? = some l := by
      rcases hor with hfinite | ⟨l, hl, rfl⟩
      · obtain ⟨l, hl, -⟩ := h.first hne hfinite
        exact ⟨l, hl⟩
      · have hdest : l.destNode = d.node := linksAt_node wiring.wellLinked hl
        have hmem : l ∈ search.paths l.srcNode := by
          refine (h.found.mem_paths _ _).mpr ⟨rfl, hdest ▸ hl, ?_⟩
          rw [hdest, h.found.target]
          exact WithTop.coe_lt_top _
        exact ⟨_, List.head?_eq_some_head (List.ne_nil_of_mem hmem)⟩
    obtain ⟨l, hhead⟩ := hpaths
    rw [h.route, firstInterface, if_pos ⟨hne, hbridge⟩, hhead]
    exact hconf.sourceInterface b hbridge l (h.found.mem_linksAt (List.mem_of_head? hhead))

/-! ## Tables that were written -/

variable [DecidableEq Mac] [DecidableEq Group]
  {routes : Endpoint Host Mac → Host → Option String}
  {s : ConfiguratorState Host Mac Group × (Host → MacForwardingTable Mac Group)}

theorem Written.outPort (h : wiring.Written tables routes s) {b : Host} {l : TopologyLink Host}
    (hl : l ∈ linksAt wiring.nodes .source b) : wiring.outPort s.2 l = wiring.outPort tables l := by
  have hb : l.srcNode ∈ wiring.modules := by
    have hsource : l.srcNode = b := linksAt_node wiring.wellLinked hl
    exact hsource ▸ mem_modules_of_mem_linksAt hl
  rw [Wiring.outPort, Wiring.outPort, (h.sameSettings _ hb).findInterfaceByName]

theorem Written.inPort (h : wiring.Written tables routes s) {b : Host} {l : TopologyLink Host}
    (hl : l ∈ linksAt wiring.nodes .dest b) : wiring.inPort s.2 l = wiring.inPort tables l := by
  have hb : l.destNode ∈ wiring.modules := by
    have hdest : l.destNode = b := linksAt_node wiring.wellLinked hl
    exact hdest ▸ mem_modules_of_mem_linksAt hl
  rw [Wiring.inPort, Wiring.inPort, (h.sameSettings _ hb).findInterfaceByName]

/-- The interfaces of the tables stay. -/
theorem Cabled.written (hcabled : wiring.Cabled interfaces tables)
    (h : wiring.Written tables routes s) : wiring.Cabled interfaces s.2 where
  toConfigurable := hcabled.toConfigurable
  findInterfaceByName b hbridge l hl name hname := by
    rw [(h.sameSettings b (mem_modules_of_mem_linksAt hl)).findInterfaceByName]
    exact hcabled.findInterfaceByName b hbridge l hl name hname
  mem_ids b hbridge l hl id hid := by
    rw [h.outPort hl] at hid
    exact hcabled.mem_ids b hbridge l hl id hid
  outPort_inj b hbridge l hl l' hl' heq := by
    rw [h.outPort hl, h.outPort hl'] at heq
    exact hcabled.outPort_inj b hbridge l hl l' hl' heq
  duplex b hbridge l hl l' hl' heq := by
    rw [h.inPort hl, h.outPort hl'] at heq
    exact hcabled.duplex b hbridge l hl l' hl' heq

omit [DecidableEq Host] in
theorem Written.follows (h : wiring.Written tables routes s) {now : Int}
    (hd : d ∈ wiring.destinations)
    (hnow : ∀ b ∈ wiring.modules, now + Infra.SimTime.sec < (tables b).agingTime) :
    wiring.Follows s.2 now d.address (routes d) where
  lookup b hb := by
    have hsame := h.sameSettings b hb
    have halive : (s.2 b).horizon now < newEntryTime := by
      rw [hsame.horizon, horizon, newEntryTime]
      have := hnow b hb
      omega
    rw [getUnicast_eq_find, Infra.Aging.find, h.forwardingTable hb hd, hsame.findInterfaceByName]
    cases (routes d b).bind (tables b).findInterfaceByName with
    | none => rfl
    | some id => simp [Option.filter, Infra.Aging.Entry.Alive, halive]

/-! ## Two hosts and two switches -/

/-- The gates of a node are those of its interfaces. -/
def portName (gateId : Int) : String := if gateId = 0 then "eth0" else "eth1"

/-- The hosts have one interface each, with their own address. -/
def lineWiring : Wiring LineNode LineNode where
  nodes := line
  interfaces
    | .leftHost => [⟨"lo0", true, none⟩, ⟨"eth0", false, some .leftHost⟩]
    | .rightHost => [⟨"lo0", true, none⟩, ⟨"eth0", false, some .rightHost⟩]
    | _ => []
  hasInterfaceTable _ := true
  hasIpv4RoutingTable
    | .leftHost | .rightHost => true
    | _ => false
  hasMacTable
    | .leftHost | .rightHost => false
    | _ => true
  sourceInterface l := some (portName l.srcGateId)
  destinationInterface l := some (portName l.destGateId)
  wellLinked := line_wellLinked

theorem lineTables_agingTime : 0 < 120 * Infra.SimTime.sec := by decide

def lineTables (_ : LineNode) : MacForwardingTable LineNode LineNode where
  agingTime := 120 * Infra.SimTime.sec
  agingTime_pos := lineTables_agingTime
  lastPurge := 0
  forwardingTable _ := none
  multicastForwardingTable _ := none
  findInterfaceByName name := if name = "eth0" then some 100 else if name = "eth1" then some 101
    else none

def lineInterfaces (_ : LineNode) : InterfaceTable where
  ids := [100, 101]
  isForwardingInterface _ := true

theorem line_cabled : lineWiring.Cabled lineInterfaces lineTables where
  hasMacTable b := by cases b <;> decide
  sourceInterface b := by cases b <;> decide
  findInterfaceByName b := by cases b <;> decide +kernel
  mem_ids b := by cases b <;> decide +kernel
  outPort_inj b := by cases b <;> decide +kernel
  duplex b := by cases b <;> decide +kernel

theorem line_leaf : ∀ host, lineWiring.isBridgeNode host = false → lineWiring.Leaf host := by
  intro host
  unfold Leaf
  cases host <;> decide

theorem line_now : ∀ b ∈ lineWiring.modules, 0 + Infra.SimTime.sec < (lineTables b).agingTime := by
  decide

theorem line_way : lineWiring.Way ⟨.rightHost, "eth0", .rightHost⟩ .leftSwitch
    [⟨.leftSwitch, 1, .rightSwitch, 0⟩, ⟨.rightSwitch, 1, .rightHost, 0⟩] := by
  refine @Way.hop _ _ _ lineWiring _ ⟨.leftSwitch, 1, .rightSwitch, 0⟩ _ (by decide) (by decide) ?_
  exact @Way.last _ _ _ lineWiring _ ⟨.rightSwitch, 1, .rightHost, 0⟩ (by decide) (by decide +kernel)

/-! ## Frames -/

/-- Where a frame may come in on a bridge: from the bridge itself, or over a link from a host. -/
def ComesIn (wiring : Wiring Host Mac) (tables : Host → MacForwardingTable Mac Group)
    (d : Endpoint Host Mac) (b : Host) (incoming : Option Int) : Prop :=
  incoming = none ∨ ∃ l ∈ linksAt wiring.nodes .dest b, wiring.isBridgeNode l.srcNode = false ∧
    l.srcNode ≠ d.node ∧ incoming = wiring.inPort tables l

omit [DecidableEq Mac] [DecidableEq Group] in
/-- It does not have to go back where it came from. -/
theorem ComesIn.not_closer (h : wiring.Installed d weights search route)
    (hcabled : wiring.Cabled interfaces tables)
    (hleaf : ∀ host, wiring.isBridgeNode host = false → host ≠ d.node → wiring.Leaf host)
    {b : Host} (hbridge : wiring.isBridgeNode b = true) {incoming : Option Int}
    (hin : wiring.ComesIn tables d b incoming) {l : TopologyLink Host}
    (hl : l ∈ linksAt wiring.nodes .source b) (hne : incoming ≠ none)
    (heq : incoming = wiring.outPort tables l) : ¬ search.dist l.destNode < search.dist b := by
  intro hlt
  obtain ⟨l₀, hl₀, hhost, hd, hport⟩ := hin.resolve_left hne
  have hback : l.destNode = l₀.srcNode :=
    hcabled.duplex b hbridge l₀ hl₀ l hl (hport.symm.trans heq)
  have hsource : l.srcNode = b := linksAt_node wiring.wellLinked hl
  have hdist := h.leaf (hback ▸ hd) (hleaf _ (hback ▸ hhost) (hback ▸ hd)) (hlt.trans_le le_top)
    (mem_linksAt_other wiring.wellLinked hl)
  rw [hsource] at hdist
  rw [hdist] at hlt
  exact absurd hlt (not_lt.mpr le_self_add)

/-- **A frame for an interface of a host arrives there, over a shortest way through the bridges and
without a loop, however groups have changed since the tables were written.** -/
theorem frames_carried (hcabled : wiring.Cabled interfaces tables)
    (haddresses : (wiring.destinations.map Endpoint.address).Nodup)
    (hempty : ∀ b key, (tables b).forwardingTable key = none)
    (hd : d ∈ wiring.destinations)
    (hleaf : ∀ host, wiring.isBridgeNode host = false → host ≠ d.node → wiring.Leaf host)
    {now : Int} (hnow : ∀ b ∈ wiring.modules, now + Infra.SimTime.sec < (tables b).agingTime)
    {b : Host} (hbridge : wiring.isBridgeNode b = true) {incoming : Option Int}
    (hin : wiring.ComesIn tables d b incoming) {ws : List (TopologyLink Host)}
    (hway : wiring.Way d b ws) :
    ∃ s, wiring.initializeTables tables = .ok s ∧
      ∀ changes s', run wiring.receiveSignal changes s = .ok s' →
        ∃ ls, wiring.Carried interfaces s'.2 now d.address incoming b ls ∧
          wiring.Way d b ls ∧ ls.length ≤ ws.length ∧
          (b :: ls.map TopologyLink.destNode).Nodup := by
  obtain ⟨s, routes, hs, hinstalled, hwritten⟩ :=
    initializeTables_spec hcabled.toNamed haddresses hempty
  refine ⟨s, hs, fun changes s' hrun => ?_⟩
  have hwritten' := written_of_run hwritten hrun
  obtain ⟨weights, search, h⟩ := hinstalled d hd
  have hfinite := ((h.dist_le hway).trans_lt (WithTop.coe_lt_top _)).ne
  obtain ⟨k, hk⟩ := WithTop.ne_top_iff_exists.mp hfinite
  have hin' : wiring.ComesIn s'.2 d b incoming := by
    refine hin.imp_right ?_
    rintro ⟨l, hl, hhost, hne, hport⟩
    exact ⟨l, hl, hhost, hne, by rw [hwritten'.inPort hl, hport]⟩
  have hcabled' := hcabled.written hwritten'
  obtain ⟨ls, hcarried, hway', hlength, hfalls⟩ := h.way (node_of_mem_destinations hd).2 hcabled'
    (hwritten'.follows hd hnow) hleaf k incoming hbridge hk.symm fun l hl hne heq =>
      hin'.not_closer h hcabled' hleaf hbridge hl hne heq
  refine ⟨ls, hcarried, hway', ?_, hfalls.imp fun hlt => ?_⟩
  · have hle := h.dist_le hway
    rw [← hk] at hle
    exact hlength.trans_le (WithTop.coe_le_coe.mp hle)
  · -- the distance falls, so no node comes twice
    rintro rfl
    exact hlt.false

theorem frames_carried_line : ∃ s, lineWiring.initializeTables lineTables = .ok s ∧
    ∀ changes s', run lineWiring.receiveSignal changes s = .ok s' →
      ∃ ls, lineWiring.Carried lineInterfaces s'.2 0 .rightHost (some 100) .leftSwitch ls ∧
        lineWiring.Way ⟨.rightHost, "eth0", .rightHost⟩ .leftSwitch ls ∧ ls.length ≤ 2 ∧
        (.leftSwitch :: ls.map TopologyLink.destNode).Nodup :=
  frames_carried line_cabled (by decide) (fun _ _ => rfl)
    (by decide +kernel : ⟨.rightHost, "eth0", .rightHost⟩ ∈ lineWiring.destinations)
    (fun host hhost _ => line_leaf host hhost) line_now (by decide)
    (.inr ⟨⟨.leftHost, 0, .leftSwitch, 0⟩, by decide, by decide, by decide, by decide +kernel⟩)
    line_way

/-- **A bridge has an entry for the interface of a host iff it has a way to it or a cable to the host.
Where there is no way, the entry leads to another interface of the host.** -/
theorem entry_iff (hcabled : wiring.Cabled interfaces tables)
    (haddresses : (wiring.destinations.map Endpoint.address).Nodup)
    (hempty : ∀ b key, (tables b).forwardingTable key = none)
    (hd : d ∈ wiring.destinations)
    (hleaf : ∀ host, wiring.isBridgeNode host = false → host ≠ d.node → wiring.Leaf host)
    {now : Int} (hnow : ∀ b ∈ wiring.modules, now + Infra.SimTime.sec < (tables b).agingTime)
    {b : Host} (hb : b ∈ wiring.modules) (hbridge : wiring.isBridgeNode b = true) :
    ∃ s, wiring.initializeTables tables = .ok s ∧
      ∀ changes s', run wiring.receiveSignal changes s = .ok s' →
        ((s'.2 b).getUnicastAddressForwardingInterface now d.address 0 ≠ -1 ↔
          (∃ ws, wiring.Way d b ws) ∨
            ∃ l ∈ linksAt wiring.nodes .dest d.node, l.srcNode = b) ∧
        ((s'.2 b).getUnicastAddressForwardingInterface now d.address 0 ≠ -1 →
          (∀ ws, ¬ wiring.Way d b ws) → ∃ l ∈ linksAt wiring.nodes .dest d.node, l.srcNode = b ∧
            wiring.destinationInterface l ≠ some d.interface ∧ wiring.outPort tables l =
              some ((s'.2 b).getUnicastAddressForwardingInterface now d.address 0)) := by
  obtain ⟨s, routes, hs, hinstalled, hwritten⟩ :=
    initializeTables_spec hcabled.toNamed haddresses hempty
  refine ⟨s, hs, fun changes s' hrun => ?_⟩
  have hwritten' := written_of_run hwritten hrun
  obtain ⟨weights, search, h⟩ := hinstalled d hd
  have hhost := (node_of_mem_destinations hd).2
  have hcabled' := hcabled.written hwritten'
  have hfollows := hwritten'.follows hd hnow
  have hne : b ≠ d.node := fun heq => by rw [heq, hhost] at hbridge; cases hbridge
  have hreached : search.dist b < ⊤ ↔ ∃ ws, wiring.Way d b ws := by
    constructor
    · intro hfinite
      obtain ⟨k, hk⟩ := WithTop.ne_top_iff_exists.mp hfinite.ne
      obtain ⟨ls, -, hway, -⟩ := h.way hhost hcabled' hfollows hleaf k _ hbridge hk.symm
        fun l _ hne _ => absurd rfl hne
      exact ⟨ls, hway⟩
    · rintro ⟨ws, hway⟩
      exact (h.dist_le hway).trans_lt (WithTop.coe_lt_top _)
  have hlookup : (s'.2 b).getUnicastAddressForwardingInterface now d.address 0 ≠ -1 ↔
      routes d b ≠ none := by
    constructor
    · intro hlookup hnone
      rw [hfollows.lookup b hb, hnone] at hlookup
      exact hlookup rfl
    · intro hsome
      obtain ⟨name, hname⟩ := Option.ne_none_iff_exists'.mp hsome
      obtain ⟨l, id, -, -, hid, hne, -⟩ := hfollows.port h hcabled' hname
      exact hid ▸ hne
  refine ⟨?_, fun hentry hnone => ?_⟩
  · rw [hlookup, h.route_ne_none hcabled.toConfigurable hleaf hbridge hne, hreached]
  · obtain ⟨name, hname⟩ := Option.ne_none_iff_exists'.mp (hlookup.mp hentry)
    obtain ⟨l, id, hhead, hport, hid, -⟩ := hfollows.port h hcabled' hname
    have hunreached : ¬ search.dist b < ⊤ := fun hfinite => by
      obtain ⟨ws, hway⟩ := hreached.mp hfinite
      exact hnone ws hway
    obtain ⟨hl, hsource, hinterface⟩ := h.unreached hleaf hunreached (List.mem_of_head? hhead)
    refine ⟨l, hl, hsource, hinterface, ?_⟩
    rw [← hwritten'.outPort (h.found.mem_linksAt (List.mem_of_head? hhead)), hport, hid]

theorem entry_iff_line : ∃ s, lineWiring.initializeTables lineTables = .ok s ∧
    ∀ changes s', run lineWiring.receiveSignal changes s = .ok s' →
      ((s'.2 .leftSwitch).getUnicastAddressForwardingInterface 0 .rightHost 0 ≠ -1 ↔
        (∃ ws, lineWiring.Way ⟨.rightHost, "eth0", .rightHost⟩ .leftSwitch ws) ∨
          ∃ l ∈ linksAt lineWiring.nodes .dest .rightHost, l.srcNode = .leftSwitch) ∧
      ((s'.2 .leftSwitch).getUnicastAddressForwardingInterface 0 .rightHost 0 ≠ -1 →
        (∀ ws, ¬ lineWiring.Way ⟨.rightHost, "eth0", .rightHost⟩ .leftSwitch ws) →
          ∃ l ∈ linksAt lineWiring.nodes .dest .rightHost, l.srcNode = .leftSwitch ∧
            lineWiring.destinationInterface l ≠ some "eth0" ∧
            lineWiring.outPort lineTables l =
              some ((s'.2 .leftSwitch).getUnicastAddressForwardingInterface 0 .rightHost 0)) :=
  entry_iff line_cabled (by decide) (fun _ _ => rfl)
    (by decide +kernel : ⟨.rightHost, "eth0", .rightHost⟩ ∈ lineWiring.destinations)
    (fun host hhost _ => line_leaf host hhost) line_now (by decide) (by decide)

end

end Wiring

end CooperativeTsn
