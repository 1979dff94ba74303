import Xiuos.Lib.Run
import Mathlib.Algebra.Group.Int.Defs
import Mathlib.Algebra.Group.Nat.Defs
import Mathlib.Data.List.Nodup

/-! `xs_adapter_lora.c`: what the gateway and a client do with a packet. `ν` stands for the strings
that fit a name and `κ` for a callback with its parameter. -/

namespace Xiuos.Framework.Lora
open Lib List

structure C2GDataReq where
  userId : Int := 0
  pkgId : Int := 0
  crc : Int := 0
  data : List UInt8 := []
  deriving DecidableEq

structure C2GDataRsp where
  userId : Int
  ackId : Int
  dataLen : Int
  crc : Int
  deriving DecidableEq

/-- A name in a request is one that nobody has checked: there is none when its field holds no
terminator. `other` is what the gateway discards by the opcode or the length. -/
inductive Packet (ν : Type)
  | joinReq (netId : Option ν)
  | joinRsp (netId gatewayName : ν)
  | handshakeReq (clientName gatewayName : Option ν)
  | handshakeRsp (clientName gatewayName : ν) (userId : Int)
  | dataReq (req : C2GDataReq)
  | dataRsp (rsp : C2GDataRsp)
  | closeReq (userId : Int)
  | closeRsp (userId : Int)
  | other
  deriving DecidableEq

section
variable {ν : Type} [DecidableEq ν]

structure OnlineUser (ν : Type) where
  userName : ν
  userId : Int

structure Gateway (ν : Type) where
  name : ν
  netId : ν
  onlineUsers : List (OnlineUser ν)

def findUserByName (users : List (OnlineUser ν)) (name : ν) : Option (OnlineUser ν) :=
  users.find? (·.userName = name)

def findUserById (users : List (OnlineUser ν)) (id : Int) : Option (OnlineUser ν) :=
  users.find? (·.userId = id)

def uint32SizeMax : Nat := 0xffffffff

structure Chance where
  rand : Fin (2 ^ 31)
  malloc : Bool

def Chance.userId (chance : Chance) : Int := (chance.rand.val % uint32SizeMax : Nat)

def dataReqLength (req : C2GDataReq) : Nat := 24 + req.data.length

variable (gw : Gateway ν)

/-- The gateway and its reply. There is none for a new user whose name is not terminated, because
`strcpy` leaves the user it fills. -/
def gatewayProcess (gw : Gateway ν) (chance : Chance) :
    Packet ν → Option (Gateway ν × Option (Packet ν))
  | .joinReq netId =>
    some (gw, if netId = some gw.netId then some (.joinRsp gw.netId gw.name) else none)
  | .handshakeReq clientName gatewayName =>
    if gatewayName = some gw.name then
      match clientName with
      | none => if chance.malloc then none else some (gw, none)
      | some clientName =>
        match findUserByName gw.onlineUsers clientName with
        | some user => some (gw, some (.handshakeRsp clientName gw.name user.userId))
        | none =>
          if chance.malloc then
            some ({ gw with onlineUsers := ⟨clientName, chance.userId⟩ :: gw.onlineUsers },
              some (.handshakeRsp clientName gw.name chance.userId))
          else some (gw, none)
    else some (gw, none)
  | .dataReq req =>
    if (findUserById gw.onlineUsers req.userId).isSome then
      some (gw, some (.dataRsp
        { userId := req.userId, ackId := req.pkgId, dataLen := dataReqLength req, crc := 0xFFFF }))
    else some (gw, none)
  | .closeReq userId =>
    if (findUserById gw.onlineUsers userId).isSome then
      some ({ gw with onlineUsers := gw.onlineUsers.eraseP (·.userId = userId) },
        some (.closeRsp userId))
    else some (gw, none)
  | _ => some (gw, none)

def gatewayStep (gw : Gateway ν) (input : Packet ν × Chance) : Option (Gateway ν) :=
  (gatewayProcess gw input.2 input.1).map (·.1)

structure Distinct (gw : Gateway ν) : Prop where
  names : (gw.onlineUsers.map (·.userName)).Nodup
  ids : (gw.onlineUsers.map (·.userId)).Nodup
  attributed : ∀ user ∈ gw.onlineUsers, findUserById gw.onlineUsers user.userId = some user

def Fresh (gw : Gateway ν) (input : Packet ν × Chance) : Prop :=
  ∀ clientName, input.1 = .handshakeReq clientName (some gw.name) → input.2.malloc = true →
    ∃ name, clientName = some name ∧ (findUserByName gw.onlineUsers name = none →
      ∀ user ∈ gw.onlineUsers, user.userId ≠ input.2.userId)

omit [DecidableEq ν] in
lemma distinct_of_nodup {gw : Gateway ν} (names : (gw.onlineUsers.map (·.userName)).Nodup)
    (ids : (gw.onlineUsers.map (·.userId)).Nodup) : Distinct gw where
  names := names
  ids := ids
  attributed user huser := by
    have hsome : (findUserById gw.onlineUsers user.userId).isSome :=
      find?_isSome.mpr ⟨user, huser, by simp⟩
    obtain ⟨user', hfind⟩ := Option.isSome_iff_exists.mp hsome
    have hid : user'.userId = user.userId := by simpa using find?_some hfind
    rw [hfind, inj_on_of_nodup_map ids (mem_of_find?_eq_some hfind) huser hid]

variable {gw : Gateway ν}

lemma distinct_insert (h : Distinct gw) {name : ν}
    (hname : findUserByName gw.onlineUsers name = none) (id : Int) :
    Distinct { gw with onlineUsers := ⟨name, id⟩ :: gw.onlineUsers } ↔
      ∀ user ∈ gw.onlineUsers, user.userId ≠ id := by
  constructor
  · intro h' user huser heq
    exact (nodup_cons.mp h'.ids).1 (mem_map.mpr ⟨user, huser, heq⟩)
  · intro hid
    refine distinct_of_nodup (nodup_cons.mpr ⟨?_, h.names⟩)
      (nodup_cons.mpr ⟨?_, h.ids⟩)
    · simpa [findUserByName] using hname
    · simpa using hid

omit [DecidableEq ν] in
lemma Distinct.close {gw : Gateway ν} (h : Distinct gw) (userId : Int) :
    Distinct { gw with onlineUsers := gw.onlineUsers.eraseP (·.userId = userId) } := by
  have hsub := gw.onlineUsers.eraseP_sublist (p := (·.userId = userId))
  exact distinct_of_nodup (h.names.sublist (hsub.map _)) (h.ids.sublist (hsub.map _))

lemma gatewayStep_distinct_iff (h : Distinct gw) (input : Packet ν × Chance) :
    (∃ gw', gatewayStep gw input = some gw' ∧ Distinct gw') ↔ Fresh gw input := by
  obtain ⟨packet, chance⟩ := input
  cases packet with
  | handshakeReq clientName gatewayName =>
    by_cases hgw : gatewayName = some gw.name
    · subst hgw
      cases clientName with
      | none => cases hm : chance.malloc <;> simp [gatewayStep, gatewayProcess, Fresh, hm, h]
      | some name =>
        cases hfind : findUserByName gw.onlineUsers name with
        | some user => simp [gatewayStep, gatewayProcess, Fresh, hfind, h]
        | none =>
          cases hm : chance.malloc
          · simp [gatewayStep, gatewayProcess, Fresh, hfind, hm, h]
          · simp [gatewayStep, gatewayProcess, Fresh, hfind, hm, distinct_insert h hfind]
    · simp [gatewayStep, gatewayProcess, Fresh, hgw, h]
  | closeReq userId =>
    by_cases hfind : (findUserById gw.onlineUsers userId).isSome <;>
      simp [gatewayStep, gatewayProcess, Fresh, hfind, h, h.close userId]
  | dataReq req =>
    by_cases hfind : (findUserById gw.onlineUsers req.userId).isSome <;>
      simp [gatewayStep, gatewayProcess, Fresh, hfind, h]
  | _ => simp [gatewayStep, gatewayProcess, Fresh, h]

theorem gateway_distinct_iff (name netId : ν) (inputs : List (Packet ν × Chance)) :
    ((runs gatewayStep ⟨name, netId, []⟩ inputs).isSome ∧
      Always gatewayStep Distinct ⟨name, netId, []⟩ inputs) ↔
      Meets gatewayStep Fresh ⟨name, netId, []⟩ inputs :=
  always_iff_meets (fun h => gatewayStep_distinct_iff h _)
    (distinct_of_nodup nodup_nil nodup_nil)

theorem gateway_same_id :
    ∃ gw, runs gatewayStep (⟨0, 0, []⟩ : Gateway Nat)
        [(.handshakeReq (some 1) (some 0), ⟨7, true⟩),
          (.handshakeReq (some 2) (some 0), ⟨7, true⟩)] = some gw ∧
      ¬ (gw.onlineUsers.map (·.userId)).Nodup ∧
      (findUserById gw.onlineUsers 7).map (·.userName) = some 2 := ⟨_, rfl, by decide, by decide⟩

end

inductive LoraClientStatus
  | idle
  | looking4Gateway
  | connecting2Gateway
  | connected
  | waittingForDisconnected
  | disconnected
  deriving DecidableEq

inductive WorkThreadStatus
  | rx
  | tx
  deriving DecidableEq

structure ClientSendCell (κ : Type) where
  hasData : Bool := false
  crc : Int := 0
  pkgId : Int := 0
  data : C2GDataReq := {}
  callback : Option κ := none

/-- The globals of a client. `building` is the request of a call of `LoraAdapterSendc2g` that has
not come to the mutex yet, `acking` holds while the work thread keeps the mutex in front of
`pkg_id_c2g++`; `accepted` and `called` are the cells stored and those whose callback was due, with
the user id of the client, since the last join. -/
structure Client (ν κ : Type) where
  name : ν
  slave : Bool := false
  netId : ν
  status : LoraClientStatus := .idle
  userId : Int := 0
  gatewayName : ν
  clientName : ν
  pkgIdC2g : Int := 0
  sendBuffer : ClientSendCell κ := {}
  needSendData : Bool := false
  workThread : WorkThreadStatus := .rx
  running : Bool := false
  building : Option (C2GDataReq × Option κ) := none
  acking : Bool := false
  accepted : List (ClientSendCell κ) := []
  called : List (ClientSendCell κ × Int) := []

variable {ν κ : Type} [DecidableEq ν]

def Client.handshake (cl : Client ν κ) (clientName gatewayName : ν) (userId : Int) : Client ν κ :=
  if clientName = cl.name then { cl with status := .connected, userId, gatewayName } else cl

/-- A join reply that the client does not look for falls through to the handshake replies, which
have the user id where it has the signal strength, zero. -/
def clientProcess (cl : Client ν κ) : Packet ν → Client ν κ
  | .joinRsp netId gatewayName =>
    if cl.status = .looking4Gateway then
      if netId = cl.netId then
        { cl with gatewayName, clientName := cl.name, status := .connecting2Gateway }
      else cl
    else cl.handshake netId gatewayName 0
  | .handshakeRsp clientName gatewayName userId => cl.handshake clientName gatewayName userId
  | .dataRsp rsp =>
    if rsp.userId = cl.userId ∧ rsp.ackId = cl.sendBuffer.pkgId ∧ rsp.crc = cl.sendBuffer.crc then
      { cl with
        called := cl.called ++ [(cl.sendBuffer, cl.userId)]
        sendBuffer := {}
        acking := true }
    else cl
  | .closeRsp userId => if userId = cl.userId then { cl with status := .disconnected } else cl
  | _ => cl

inductive ClientAct (ν κ : Type)
  | adapterOpen
  | adapterJoin (netId : ν)
  | adapterCose
  | coseEnd
  | sendc2g (data : List UInt8) (cb : Option κ)
  | storeCell
  | leaveRx
  | receive (packet : Packet ν)
  | nextPkgId
  | transmit

def Client.listens (cl : Client ν κ) : Bool := cl.running && !cl.acking

def Client.request (cl : Client ν κ) (data : List UInt8) : C2GDataReq where
  userId := cl.userId
  pkgId := cl.pkgIdC2g
  crc := 0xFFFF
  data := data

def Client.cell (cl : Client ν κ) (req : C2GDataReq) (cb : Option κ) : ClientSendCell κ where
  hasData := true
  crc := 0xFFFF
  pkgId := cl.pkgIdC2g
  data := req
  callback := cb

def Client.output (cl : Client ν κ) : Option (Packet ν) :=
  match cl.status with
  | .looking4Gateway => some (.joinReq (some cl.netId))
  | .connecting2Gateway => some (.handshakeReq (some cl.clientName) (some cl.gatewayName))
  | .connected => if cl.sendBuffer.hasData then some (.dataReq cl.sendBuffer.data) else none
  | .waittingForDisconnected => some (.closeReq cl.userId)
  | _ => none

def clientStep [Inhabited ν] (cl : Client ν κ) : ClientAct ν κ → Option (Client ν κ)
  | .adapterOpen =>
    some { cl with
      slave := false, status := .idle, userId := 0, gatewayName := default, clientName := default
      pkgIdC2g := 1 }
  | .adapterJoin netId =>
    some { cl with
      slave := true, netId, status := .looking4Gateway, sendBuffer := {}, running := true
      workThread := .tx, accepted := [], called := [] }
  | .adapterCose => some { cl with status := .waittingForDisconnected, needSendData := true }
  | .coseEnd => some { cl with running := false }
  | .sendc2g data cb =>
    if cl.building.isSome then none
    else if cl.slave ∧ cl.status = .connected ∧ dataReqLength (cl.request data) ≤ 120 ∧
        cl.sendBuffer.hasData = false then
      some { cl with building := some (cl.request data, cb) }
    else some cl
  | .storeCell =>
    match cl.building with
    | none => none
    | some (req, cb) =>
      if cl.acking then none
      else
        some { cl with
          sendBuffer := cl.cell req cb
          needSendData := true
          building := none
          accepted := cl.accepted ++ [cl.cell req cb] }
  | .leaveRx =>
    if cl.listens ∧ cl.workThread = .rx then
      some { cl with workThread := .tx, needSendData := false }
    else none
  | .receive packet =>
    if cl.listens ∧ cl.workThread = .rx then
      let cl' := clientProcess cl packet
      some { cl' with workThread := if cl.status ≠ cl'.status then .tx else .rx }
    else none
  | .nextPkgId =>
    if cl.acking ∧ cl.pkgIdC2g + 1 < 2 ^ 31 then
      some { cl with pkgIdC2g := cl.pkgIdC2g + 1, acking := false }
    else none
  | .transmit =>
    if cl.listens ∧ cl.workThread = .tx then some { cl with workThread := .rx } else none

end Xiuos.Framework.Lora
