import P2Panda.Core.Operation
import P2Panda.Core.Timestamp

/-!
# Transport infos

A node info has a transport info that was accepted for it. Of an authenticated one only the
signature is checked, not whether its addresses are of the node.
-/

namespace P2Panda.Net

open P2Panda.Library Outcome P2Panda.Core

inductive NodeInfoError where
  | missingTransportAddresses
  | nodeIdMismatch
  | invalidSignature
  | encode (message : String)

/-- `iroh_base::EndpointAddr`. -/
structure EndpointAddr where
  id : VerifyingKey
  addrs : List String

inductive TransportAddress where
  | iroh (endpointAddr : EndpointAddr)

inductive TransportInfo where
  | trusted (timestamp : HybridTimestamp) (addresses : List TransportAddress)
  | authenticated (timestamp : HybridTimestamp) (signature : Signature)
      (addresses : List TransportAddress)

structure NodeInfo where
  nodeId : VerifyingKey
  bootstrap : Bool := false
  transports : Option TransportInfo := none

/-- The bytes of an unsigned transport info, and how their signature is checked. -/
structure Signatures where
  toBytes : HybridTimestamp → List TransportAddress → Outcome String Bytes
  verify : VerifyingKey → Bytes → Signature → Bool

def TransportAddress.verify (nodeId : VerifyingKey) : TransportAddress → Outcome NodeInfoError Unit
  | .iroh endpointAddr => if endpointAddr.id ≠ nodeId then .err .nodeIdMismatch else .ok ()

namespace TransportInfo

def timestamp : TransportInfo → HybridTimestamp
  | .trusted timestamp _ => timestamp
  | .authenticated timestamp _ _ => timestamp

def addresses : TransportInfo → List TransportAddress
  | .trusted _ addresses => addresses
  | .authenticated _ _ addresses => addresses

def isAuthenticated : TransportInfo → Bool
  | .trusted _ _ => false
  | .authenticated _ _ _ => true

def verify (s : Signatures) (nodeId : VerifyingKey) : TransportInfo → Outcome NodeInfoError Unit
  | .trusted _ addresses => addresses.forM (TransportAddress.verify nodeId)
  | .authenticated timestamp signature addresses => do
    let bytes ← (s.toBytes timestamp addresses).mapErr .encode
    if s.verify nodeId bytes signature then .ok () else .err .invalidSignature

def endpointAddr (self : TransportInfo) : Option EndpointAddr :=
  self.addresses.findSome? fun | .iroh endpointAddr => some endpointAddr

end TransportInfo

namespace NodeInfo

def updateTransports (s : Signatures) (self : NodeInfo) (other : TransportInfo) :
    Outcome NodeInfoError (NodeInfo × Bool) := do
  other.verify s self.nodeId
  match self.transports with
  | none => return ({ self with transports := some other }, true)
  | some current =>
    if current.timestamp < other.timestamp then
      return ({ self with transports := some other }, true)
    else return (self, false)

def verify (s : Signatures) (self : NodeInfo) : Outcome NodeInfoError Unit :=
  match self.transports with
  | some transports => transports.verify s self.nodeId
  | none => .ok ()

/-- `EndpointAddr::try_from`. -/
def toEndpointAddr (self : NodeInfo) : Outcome NodeInfoError EndpointAddr :=
  match self.transports.bind TransportInfo.endpointAddr with
  | some endpointAddr => .ok endpointAddr
  | none => .err .missingTransportAddresses

/-- A call of `update_transports`, or of the address book, for a node. -/
inductive Call where
  | updateTransports (info : TransportInfo)
  | insertTransportInfo (info : TransportInfo)
  | insertNodeInfo (bootstrap : Bool) (transports : Option TransportInfo)

def Call.transports : Call → Option TransportInfo
  | .updateTransports info | .insertTransportInfo info => some info
  | .insertNodeInfo _ transports => transports

/-- What is stored after an accepted call. A new node info stands for nothing stored. -/
def handle (s : Signatures) (self : NodeInfo) : Call → Outcome NodeInfoError NodeInfo
  | .updateTransports info => do
    let (nodeInfo, _) ← self.updateTransports s info
    return nodeInfo
  | .insertTransportInfo info => do
    info.verify s self.nodeId
    let (nodeInfo, _) ← self.updateTransports s info
    return nodeInfo
  | .insertNodeInfo bootstrap transports => do
    let nodeInfo := { self with bootstrap, transports }
    nodeInfo.verify s
    return nodeInfo

variable {s : Signatures} {nodeInfo nodeInfo' : NodeInfo} {call : Call} {n : VerifyingKey}
  {info : TransportInfo}

/-- The transport info stays, or is the given one, which was verified. -/
structure Effect (s : Signatures) (given : Option TransportInfo) (nodeInfo nodeInfo' : NodeInfo) :
    Prop where
  nodeId : nodeInfo'.nodeId = nodeInfo.nodeId
  transports : ∀ info, nodeInfo'.transports = some info → nodeInfo.transports = some info ∨
    given = some info ∧ info.verify s nodeInfo.nodeId = .ok ()

theorem Effect.of_updateTransports {isNewer : Bool}
    (h : nodeInfo.updateTransports s info = .ok (nodeInfo', isNewer)) :
    Effect s (some info) nodeInfo nodeInfo' := by
  obtain ⟨_, hver, h⟩ := bind_eq_ok.mp h
  have hnew : Effect s (some info) nodeInfo { nodeInfo with transports := some info } := by
    refine ⟨rfl, ?_⟩
    rintro _ ⟨⟩
    exact Or.inr ⟨rfl, hver⟩
  split at h
  · cases h
    exact hnew
  · split_ifs at h
    · cases h
      exact hnew
    · cases h
      exact ⟨rfl, fun _ => Or.inl⟩

theorem Effect.of_handle (h : nodeInfo.handle s call = .ok nodeInfo') :
    Effect s call.transports nodeInfo nodeInfo' := by
  cases call with
  | updateTransports info =>
    obtain ⟨⟨_, _⟩, h, ⟨⟩⟩ := bind_eq_ok.mp h
    exact .of_updateTransports h
  | insertTransportInfo info =>
    obtain ⟨_, -, h⟩ := bind_eq_ok.mp h
    obtain ⟨⟨_, _⟩, h, ⟨⟩⟩ := bind_eq_ok.mp h
    exact .of_updateTransports h
  | insertNodeInfo bootstrap transports =>
    obtain ⟨_, hver, ⟨⟩⟩ := bind_eq_ok.mp h
    refine ⟨rfl, ?_⟩
    rintro _ ⟨⟩
    exact Or.inr ⟨rfl, hver⟩

/-- The first address is one of the node. -/
def Names (n : VerifyingKey) (info : TransportInfo) : Prop :=
  ∀ addr, info.endpointAddr = some addr → addr.id = n

theorem names_of_verify (h : info.verify s n = .ok ()) (hinfo : info.isAuthenticated = false) :
    Names n info := by
  obtain ⟨timestamp, addresses⟩ | _ := info
  · intro addr haddr
    obtain _ | ⟨⟨endpointAddr⟩, addresses⟩ := addresses
    · cases haddr
    · cases haddr
      obtain ⟨_, hver, -⟩ := bind_eq_ok.mp h
      by_contra hne
      cases (if_pos hne).symm.trans hver
  · cases hinfo

theorem transports_of_run {P : TransportInfo → Prop} {accepted : List Call}
    (hrun : accepted.foldlM (handle s) nodeInfo = .ok nodeInfo')
    (h : ∀ info, nodeInfo.transports = some info → P info)
    (hcalls : ∀ call ∈ accepted, ∀ info, call.transports = some info →
      info.verify s nodeInfo.nodeId = .ok () → P info) :
    ∀ info, nodeInfo'.transports = some info → P info := by
  induction accepted generalizing nodeInfo with
  | nil =>
    cases hrun
    exact h
  | cons call accepted ih =>
    obtain ⟨next, hnext, hrun⟩ := bind_eq_ok.mp hrun
    obtain ⟨hid, htransports⟩ := Effect.of_handle hnext
    rw [← hid, List.forall_mem_cons] at hcalls
    refine ih hrun (fun info hsome => ?_) hcalls.2
    obtain hold | ⟨hcall, hver⟩ := htransports info hsome
    · exact h info hold
    · exact hcalls.1 info hcall (hid ▸ hver)

/-- What is stored for a node is converted to an address of the node, if and only if every
authenticated transport info it has signed begins with an address of it. -/
theorem toEndpointAddr_id_iff (s : Signatures) (n : VerifyingKey) (calls : Set Call) :
    (∀ accepted : List Call, (∀ call ∈ accepted, call ∈ calls) → ∀ nodeInfo,
      accepted.foldlM (handle s) { nodeId := n } = .ok nodeInfo →
        ∀ addr, nodeInfo.toEndpointAddr = .ok addr → addr.id = n) ↔
      ∀ call ∈ calls, ∀ info, call.transports = some info → info.isAuthenticated = true →
        info.verify s n = .ok () → Names n info := by
  constructor
  · intro h call hcall info hinfo _ hver addr haddr
    have hhdl : ∃ bootstrap, handle s { nodeId := n } call = .ok ⟨n, bootstrap, some info⟩ := by
      cases call with
      | updateTransports | insertTransportInfo =>
        cases hinfo
        simp [handle, updateTransports, hver]
      | insertNodeInfo bootstrap =>
        cases hinfo
        simp [handle, NodeInfo.verify, hver]
    obtain ⟨bootstrap, hhdl⟩ := hhdl
    refine h [call] (by simpa using hcall) ⟨n, bootstrap, info⟩ (by simp [hhdl]) addr ?_
    simp [toEndpointAddr, haddr]
  · intro h accepted hacc nodeInfo hrun addr haddr
    have hcalls : ∀ call ∈ accepted, ∀ info, call.transports = some info →
        info.verify s n = .ok () → Names n info := by
      intro call hcall info hinfo hver
      cases hauth : info.isAuthenticated with
      | true => exact h call (hacc call hcall) info hinfo hauth hver
      | false => exact names_of_verify hver hauth
    unfold toEndpointAddr at haddr
    split at haddr
    · rename_i hsome
      cases haddr
      obtain ⟨info, hinfo, hendpoint⟩ := Option.bind_eq_some_iff.mp hsome
      exact transports_of_run hrun nofun hcalls info hinfo addr hendpoint
    · cases haddr

/-- A signature has the first byte of its key, and the bytes that were signed. -/
def sampleSignatures : Signatures where
  toBytes _ addresses := .ok (addresses.map fun | .iroh addr => addr.id.bytes[0])
  verify nodeId bytes signature := signature.bytes.toList.take (bytes.length + 1) =
    nodeId.bytes[0] :: bytes

/-- The node has signed an address of another node. -/
theorem toEndpointAddr_other_id : ∃ nodeInfo addr,
    [Call.insertTransportInfo (.authenticated ⟨0, 0⟩ ⟨.ofFn fun i => if i.val = 0 then 1 else 2⟩
      [.iroh ⟨⟨.replicate _ 2⟩, []⟩])].foldlM (handle sampleSignatures)
      { nodeId := ⟨.replicate _ 1⟩ } = .ok nodeInfo ∧
    nodeInfo.toEndpointAddr = .ok addr ∧ addr.id ≠ ⟨.replicate _ 1⟩ :=
  ⟨_, _, rfl, rfl, by decide⟩

end NodeInfo

end P2Panda.Net
