import Xiuos.Framework.Lora
import Mathlib.Logic.Function.Basic

namespace Xiuos.Framework.Lora
open Lib Function List Option

section Disconnect
variable {ν κ : Type} [DecidableEq ν] [Inhabited ν]

def Client.OwnReply (cl : Client ν κ) : ClientAct ν κ → Prop
  | .receive (.handshakeRsp clientName _ _) => clientName = cl.name
  | .receive (.joinRsp netId _) => netId = cl.name
  | _ => False

def Client.Ended (cl : Client ν κ) : Prop :=
  cl.status = .idle ∨ cl.status = .waittingForDisconnected ∨ cl.status = .disconnected

omit [Inhabited ν] in
lemma Client.Ended.clientProcess {cl : Client ν κ} {packet : Packet ν} (h : cl.Ended) :
    (cl.OwnReply (.receive packet) → (clientProcess cl packet).status = .connected) ∧
      (¬ cl.OwnReply (.receive packet) → (clientProcess cl packet).Ended) := by
  have hlook : cl.status ≠ .looking4Gateway := by
    rcases h with h | h | h <;> simp [h]
  cases packet with
  | joinRsp netId gatewayName =>
    by_cases heq : netId = cl.name <;>
      simp [OwnReply, Lora.clientProcess, hlook, handshake, heq, h]
  | handshakeRsp clientName gatewayName userId =>
    by_cases heq : clientName = cl.name <;> simp [OwnReply, Lora.clientProcess, handshake, heq, h]
  | dataRsp rsp =>
    simp only [OwnReply, Lora.clientProcess]
    split <;> exact ⟨False.elim, fun _ => h⟩
  | closeRsp userId =>
    simp only [OwnReply, Lora.clientProcess]
    split
    · simp [Ended]
    · simpa using h
  | _ => simpa [OwnReply, Lora.clientProcess] using h

lemma Client.Ended.clientStep {cl cl' : Client ν κ} {act : ClientAct ν κ} (h : cl.Ended)
    (hjoin : ∀ netId, act ≠ .adapterJoin netId) (hstep : clientStep cl act = some cl') :
    (cl.OwnReply act → cl'.status = .connected) ∧ (¬ cl.OwnReply act → cl'.Ended) := by
  cases act with
  | adapterJoin netId => exact absurd rfl (hjoin netId)
  | receive packet =>
    simp only [Lora.clientStep] at hstep
    obtain ⟨-, ⟨⟩⟩ := ite_none_right_eq_some.mp hstep
    exact h.clientProcess
  | _ =>
    refine ⟨False.elim, fun _ => ?_⟩
    simp only [Lora.clientStep] at hstep
    grind [Client.Ended]

theorem disconnect_final_iff {cl : Client ν κ} (h : cl.status = .waittingForDisconnected ∨
    cl.status = .disconnected) {acts : List (ClientAct ν κ)}
    (hjoin : ∀ netId, .adapterJoin netId ∉ acts) :
    Always clientStep (fun cl => cl.status ≠ .connected) cl acts ↔
      Each clientStep (fun cl act => ¬ cl.OwnReply act) cl acts := by
  have hended : cl.Ended := .inr h
  clear h
  induction acts generalizing cl with
  | nil =>
    refine iff_of_true ?_ True.intro
    rcases hended with h | h | h <;> simp [Always, h]
  | cons act acts ih =>
    have hne : cl.status ≠ .connected := by
      rcases hended with h | h | h <;> simp [h]
    rw [Always, Each, and_iff_right hne]
    refine forall_congr' fun cl' => imp_congr_right fun hstep => ?_
    obtain ⟨hown, hother⟩ := hended.clientStep (by grind) hstep
    by_cases hreply : cl.OwnReply act
    · refine iff_of_false (fun hall => hall.head (hown hreply)) (fun heach => heach.1 hreply)
    · rw [and_iff_right hreply]
      exact ih (by grind) (hother hreply)

theorem disconnect_final_closed :
    Always clientStep (fun cl => cl.status ≠ .connected)
      ({ name := 1, netId := 0, gatewayName := 0, clientName := 0
         status := .waittingForDisconnected, running := true } : Client Nat Nat)
      [.receive (.closeRsp 0)] :=
  (disconnect_final_iff (.inl rfl) (by simp)).mpr fun _ _ => ⟨id, True.intro⟩

end Disconnect

section Net
variable {ι ν κ : Type} [DecidableEq ι] [DecidableEq ν] [Inhabited ν]

abbrev Sent (ι ν : Type) := Option ι × Packet ν

abbrev Log (ι ν : Type) := List (Option ι × Packet ν × Packet ν)

structure World (ι ν κ : Type) where
  gateway : Gateway ν
  clients : ι → Client ν κ
  air : List (Sent ι ν)
  handled : Log ι ν

/-- A packet in the air may be received by any party and any number of times until it is lost. -/
inductive Act (ι ν κ : Type)
  | client (c : ι) (act : ClientAct ν κ)
  | gateway (sender : Option ι) (packet : Packet ν) (chance : Chance)
  | lose (sent : Sent ι ν)

def ClientAct.Heard (air : List (Sent ι ν)) : ClientAct ν κ → Prop
  | .receive packet => ∃ sent ∈ air, sent.2 = packet
  | _ => True

instance (air : List (Sent ι ν)) (act : ClientAct ν κ) : Decidable (act.Heard air) :=
  match act with
  | .receive packet => inferInstanceAs (Decidable (∃ sent ∈ air, sent.2 = packet))
  | .adapterOpen | .adapterJoin _ | .adapterCose | .coseEnd | .sendc2g .. | .storeCell | .leaveRx
  | .nextPkgId | .transmit => isTrue True.intro

def ClientAct.output (cl : Client ν κ) : ClientAct ν κ → Option (Packet ν)
  | .transmit => cl.output
  | _ => none

def step (w : World ι ν κ) : Act ι ν κ → Option (World ι ν κ)
  | .client c act =>
    if act.Heard w.air then do
      let cl ← clientStep (w.clients c) act
      some { w with
        clients := Function.update w.clients c cl
        air := ((act.output (w.clients c)).toList.map (some c, ·)) ++ w.air }
    else none
  | .gateway sender packet chance =>
    if (sender, packet) ∈ w.air then do
      let (gateway, reply) ← gatewayProcess w.gateway chance packet
      some { w with
        gateway
        air := reply.toList.map (none, ·) ++ w.air
        handled := reply.toList.map (sender, packet, ·) ++ w.handled }
    else none
  | .lose sent => some { w with air := w.air.erase sent }

inductive Answers (gw : Gateway ν) : Packet ν → Packet ν → Prop
  | join (netId : Option ν) : Answers gw (.joinReq netId) (.joinRsp gw.netId gw.name)
  | handshake (name : ν) (userId : Int) :
    Answers gw (.handshakeReq (some name) (some gw.name)) (.handshakeRsp name gw.name userId)
  | data (req : C2GDataReq) :
    Answers gw (.dataReq req) (.dataRsp
      { userId := req.userId, ackId := req.pkgId, dataLen := dataReqLength req, crc := 0xFFFF })
  | close (userId : Int) : Answers gw (.closeReq userId) (.closeRsp userId)

omit [Inhabited ν] in
lemma gatewayProcess_answers {gw gw' : Gateway ν} {chance : Chance} {packet : Packet ν}
    {reply : Option (Packet ν)} (h : gatewayProcess gw chance packet = some (gw', reply)) :
    gw'.netId = gw.netId ∧ ∀ r, reply = some r → Answers gw packet r := by
  cases packet <;> simp only [gatewayProcess] at h <;> grind [Answers]

structure Kept (G : Log ι ν → Sent ι ν → Prop) (H : Log ι ν → ι → Client ν κ → Prop)
    (K : Gateway ν → Prop) (ok : Act ι ν κ → Prop) : Prop where
  packet_mono {e handled sent} : G handled sent → G (e :: handled) sent
  client_mono {e handled c cl} : H handled c cl → H (e :: handled) c cl
  client {handled c cl act cl'} : ok (.client c act) → H handled c cl →
    (∀ packet, act = .receive packet → ∃ sender, G handled (sender, packet)) →
    clientStep cl act = some cl' → H handled c cl'
  output {handled c cl packet} : H handled c cl → cl.output = some packet →
    G handled (some c, packet)
  gateway {handled gw chance sender packet gw' reply} : K gw → G handled (sender, packet) →
    gatewayProcess gw chance packet = some (gw', reply) →
    K gw' ∧ ∀ r, reply = some r → G ((sender, packet, r) :: handled) (none, r)

structure Holds (G : Log ι ν → Sent ι ν → Prop) (H : Log ι ν → ι → Client ν κ → Prop)
    (K : Gateway ν → Prop) (w : World ι ν κ) : Prop where
  packets : ∀ sent ∈ w.air, G w.handled sent
  clients : ∀ c, H w.handled c (w.clients c)
  gateway : K w.gateway

section Kept
variable {G : Log ι ν → Sent ι ν → Prop} {H : Log ι ν → ι → Client ν κ → Prop}
variable {K : Gateway ν → Prop}
variable {ok : Act ι ν κ → Prop} {w w' : World ι ν κ} {act : Act ι ν κ}

lemma Kept.step (hkept : Kept G H K ok) (h : Holds G H K w) (hok : ok act)
    (hstep : step w act = some w') : Holds G H K w' := by
  cases act with
  | client c act =>
    simp only [Lora.step] at hstep
    obtain ⟨hheard, hstep⟩ := ite_none_right_eq_some.mp hstep
    obtain ⟨cl, hcl, ⟨⟩⟩ := bind_eq_some_iff.mp hstep
    refine ⟨fun sent hsent => ?_, fun c' => ?_, h.gateway⟩
    · rcases mem_append.mp hsent with hout | hair
      · obtain ⟨packet, hpacket, rfl⟩ := List.mem_map.mp hout
        cases act with
        | transmit => exact hkept.output (h.clients c) (mem_toList.mp hpacket)
        | _ => simp [ClientAct.output] at hpacket
      · exact h.packets sent hair
    · change H w.handled c' (Function.update w.clients c cl c')
      by_cases hc : c' = c
      · subst hc
        rw [update_self]
        refine hkept.client hok (h.clients c') ?_ hcl
        rintro packet rfl
        obtain ⟨sent, hsent, rfl⟩ := hheard
        exact ⟨sent.1, h.packets sent hsent⟩
      · rw [update_of_ne hc]
        exact h.clients c'
  | gateway sender packet chance =>
    simp only [Lora.step] at hstep
    obtain ⟨hmem, hstep⟩ := ite_none_right_eq_some.mp hstep
    obtain ⟨⟨gw, reply⟩, hgw, ⟨⟩⟩ := bind_eq_some_iff.mp hstep
    obtain ⟨hK, hreply⟩ := hkept.gateway h.gateway (h.packets _ hmem) hgw
    cases reply with
    | none => exact ⟨h.packets, h.clients, hK⟩
    | some r =>
      refine ⟨fun sent hsent => ?_, fun c => hkept.client_mono (h.clients c), hK⟩
      rcases mem_cons.mp hsent with rfl | hair
      · exact hreply r rfl
      · exact hkept.packet_mono (h.packets sent hair)
  | lose sent =>
    cases hstep
    exact ⟨fun sent' h' => h.packets sent' (mem_of_mem_erase h'), h.clients, h.gateway⟩

lemma Kept.run (hkept : Kept G H K ok) (h : Holds G H K w) {acts : List (Act ι ν κ)}
    (hok : ∀ act ∈ acts, ok act) (hrun : runs Lora.step w acts = some w') : Holds G H K w' :=
  (always_of_each (C := fun _ act => ok act) (fun h hc hstep => hkept.step h hc hstep) h
    (Each.of_forall hok)).last hrun

end Kept

structure Net (ι ν : Type) where
  gatewayName : ν
  netId : ν
  clientName : ι → ν
  clientName_injective : Function.Injective clientName

def Net.start (net : Net ι ν) : World ι ν κ where
  gateway := ⟨net.gatewayName, net.netId, []⟩
  clients := fun c =>
    { name := net.clientName c, netId := default, gatewayName := default, clientName := default }
  air := []
  handled := []

def Issued (handled : Log ι ν) (c : ι) (name : ν) (userId : Int) : Prop :=
  ∃ gatewayName, (some c, .handshakeReq (some name) (some gatewayName),
    .handshakeRsp name gatewayName userId) ∈ handled

def Authentic (net : Net ι ν) (w : World ι ν κ) : Prop :=
  ∀ c, (w.clients c).status = .connected →
    Issued w.handled c (net.clientName c) (w.clients c).userId

def Genuine (net : Net ι ν) (handled : Log ι ν) : Sent ι ν → Prop
  | (_, .joinRsp netId _) => netId = net.netId
  | (sender, .handshakeReq clientName _) =>
    ∃ c, sender = some c ∧ clientName = some (net.clientName c)
  | (_, .handshakeRsp clientName _ userId) =>
    ∃ c, clientName = net.clientName c ∧ Issued handled c clientName userId
  | _ => True

structure Honest (net : Net ι ν) (handled : Log ι ν) (c : ι) (cl : Client ν κ) : Prop where
  name : cl.name = net.clientName c
  clientName : cl.status = .connecting2Gateway → cl.clientName = net.clientName c
  connected : cl.status = .connected → Issued handled c (net.clientName c) cl.userId

omit [DecidableEq ι] [Inhabited ν] in
lemma Honest.clientProcess {net : Net ι ν} (hne : ∀ c, net.clientName c ≠ net.netId)
    {handled : Log ι ν} {c : ι} {cl : Client ν κ} (h : Honest net handled c cl) {sender : Option ι}
    {packet : Packet ν} (hpacket : Genuine net handled (sender, packet)) :
    Honest net handled c (clientProcess cl packet) := by
  obtain ⟨hname, hclient, hconn⟩ := h
  cases packet with
  | joinRsp netId gatewayName =>
    have hnet : netId ≠ cl.name := by
      rw [hname, show netId = net.netId from hpacket]
      exact (hne c).symm
    grind [Lora.clientProcess, Client.handshake, Honest]
  | handshakeRsp clientName gatewayName userId =>
    obtain ⟨c', rfl, hissued⟩ := hpacket
    have hsame : net.clientName c' = net.clientName c → c' = c :=
      fun h => net.clientName_injective h
    grind [Lora.clientProcess, Client.handshake, Honest]
  | _ => grind [Lora.clientProcess, Honest]

omit [DecidableEq ι] in
lemma kept_authentic {net : Net ι ν} (hne : ∀ c, net.clientName c ≠ net.netId) :
    Kept (κ := κ) (Genuine net) (Honest net) (fun gw => gw.netId = net.netId) (fun _ => True) where
  packet_mono {e handled sent} h := by
    obtain ⟨sender, packet⟩ := sent
    cases packet <;> grind [Genuine, Issued]
  client_mono h := ⟨h.name, h.clientName, fun hc => by grind [h.connected hc, Issued]⟩
  client {handled c cl act cl'} _ h hpacket hstep := by
    cases act with
    | receive packet =>
      obtain ⟨sender, hgenuine⟩ := hpacket packet rfl
      simp only [clientStep] at hstep
      obtain ⟨-, ⟨⟩⟩ := ite_none_right_eq_some.mp hstep
      exact ⟨(h.clientProcess hne hgenuine).name, (h.clientProcess hne hgenuine).clientName,
        (h.clientProcess hne hgenuine).connected⟩
    | _ =>
      obtain ⟨hname, hclient, hconn⟩ := h
      simp only [clientStep] at hstep
      grind [Honest]
  output {handled c cl packet} h hout := by
    rw [Client.output] at hout
    cases hs : cl.status with
    | connecting2Gateway =>
      simp only [hs] at hout
      cases hout
      exact ⟨c, rfl, congrArg some (h.clientName hs)⟩
    | _ => cases packet <;> simp_all [Genuine]
  gateway {handled gw chance sender packet gw' reply} hK hpacket hgw := by
    obtain ⟨hnet, hreply⟩ := gatewayProcess_answers hgw
    refine ⟨hnet.trans hK, fun r hr => ?_⟩
    cases hreply r hr with
    | join => exact hK
    | handshake name userId =>
      obtain ⟨c, rfl, hname⟩ := hpacket
      exact ⟨c, Option.some.inj hname, gw.name, mem_cons_self⟩
    | data | close => trivial

omit [DecidableEq ι] [DecidableEq ν] in
lemma Net.start_holds (net : Net ι ν) :
    Holds (κ := κ) (Genuine net) (Honest net) (fun gw => gw.netId = net.netId) net.start :=
  ⟨by simp [Net.start], fun c => ⟨rfl, nofun, nofun⟩, rfl⟩

def oneClient : Net Unit Nat where
  gatewayName := 0
  netId := 9
  clientName := fun _ => 1
  clientName_injective := fun _ _ _ => rfl

def connects {ι : Type} (c : ι) (name : Nat) (userId : Fin (2 ^ 31)) :
    List (Act ι Nat Nat) :=
  [.client c .transmit, .gateway (some c) (.joinReq (some 9)) ⟨0, true⟩,
    .client c (.receive (.joinRsp 9 0)), .client c .transmit,
    .gateway (some c) (.handshakeReq (some name) (some 0)) ⟨userId, true⟩,
    .client c (.receive (.handshakeRsp name 0 userId.val)), .client c .transmit]

theorem disconnect_not_final :
    ∃ w w', runs step oneClient.start
        (.client () (.adapterJoin 9) :: connects () 1 7 ++ [.client () .adapterCose]) = some w ∧
      (w.clients ()).status = .waittingForDisconnected ∧
      runs step w [.client () (.receive (.handshakeRsp 1 0 7))] = some w' ∧
      (w'.clients ()).status = .connected := ⟨_, _, rfl, rfl, rfl, rfl⟩

def falseReply (net : Net ι ν) (c : ι) (chance : Chance) : List (Act ι ν κ) :=
  [.client c (.adapterJoin net.netId), .client c .transmit,
    .gateway (some c) (.joinReq (some net.netId)) chance,
    .client c (.receive (.joinRsp net.netId net.gatewayName)), .client c .transmit,
    .client c (.receive (.joinRsp net.netId net.gatewayName))]

lemma falseReply_connects {net : Net ι ν} {c : ι} (h : net.clientName c = net.netId)
    (chance : Chance) :
    ∃ w : World ι ν κ, runs step net.start (falseReply net c chance) = some w ∧
      (w.clients c).status = .connected ∧ ¬ Authentic net w := by
  have hrun : ∃ w : World ι ν κ, runs step net.start (falseReply net c chance) = some w ∧
      (w.clients c).status = .connected ∧
      w.handled = [(some c, .joinReq (some net.netId), .joinRsp net.netId net.gatewayName)] := by
    simp [runs, falseReply, step, Net.start, clientStep, ClientAct.Heard, ClientAct.output,
      Client.output, Client.listens, gatewayProcess, clientProcess, Client.handshake, h]
  obtain ⟨w, hrun, hstatus, hhandled⟩ := hrun
  refine ⟨w, hrun, hstatus, fun hauth => ?_⟩
  obtain ⟨gatewayName, hmem⟩ := hauth c hstatus
  simp [hhandled] at hmem

theorem connected_authentic_iff (net : Net ι ν) :
    (∀ acts (w : World ι ν κ), runs step net.start acts = some w → Authentic net w) ↔
      ∀ c, net.clientName c ≠ net.netId := by
  constructor
  · intro h c hname
    obtain ⟨w, hrun, -, hnot⟩ := falseReply_connects hname ⟨0, true⟩
    exact hnot (h _ w hrun)
  · intro hne acts w hrun c hstatus
    have hholds := (kept_authentic hne).run net.start_holds (fun _ _ => True.intro) hrun
    exact (hholds.clients c).connected hstatus

def ownNet : Net Unit Nat := { oneClient with netId := 1 }

theorem connected_not_authentic :
    ∃ w : World Unit Nat Nat, runs step ownNet.start (falseReply ownNet () ⟨0, true⟩) = some w ∧
      (w.clients ()).status = .connected ∧ ¬ Authentic ownNet w :=
  falseReply_connects (c := ()) rfl _

def Processed (handled : Log ι ν) (c : ι) (userId pkgId : Int) : Prop :=
  ∃ req rsp, (some c, .dataReq req, .dataRsp rsp) ∈ handled ∧ req.userId = userId ∧
    req.pkgId = pkgId

/-- The callbacks that were due are those of the first payloads accepted, in their order, and the
gateway has processed a request of the client with the id of each. -/
structure Acknowledged (w : World ι ν κ) (c : ι) : Prop where
  inOrder : (w.clients c).called.map Prod.fst <+: (w.clients c).accepted
  processed : ∀ p ∈ (w.clients c).called, Processed w.handled c p.2 p.1.pkgId

def Continues (c : ι) : Act ι ν κ → Prop
  | .client c' (.adapterJoin _) => c' ≠ c
  | .client c' .adapterCose => c' ≠ c
  | _ => True

def Answered (handled : Log ι ν) : Sent ι ν → Prop
  | (_, .dataRsp rsp) => rsp.crc = 0xFFFF ∧ ∃ c, Processed handled c rsp.userId rsp.ackId
  | (sender, .dataReq _) => ∃ c, sender = some c
  | _ => True

structure Sends (handled : Log ι ν) (cl : Client ν κ) : Prop where
  building : cl.building.isSome → cl.sendBuffer.hasData = false
  crc : cl.sendBuffer.hasData = false → cl.sendBuffer.crc = 0
  accepted : cl.accepted =
    cl.called.map Prod.fst ++ if cl.sendBuffer.hasData then [cl.sendBuffer] else []
  called : ∀ p ∈ cl.called, ∃ c, Processed handled c p.2 p.1.pkgId

omit [DecidableEq ι] [DecidableEq ν] [Inhabited ν] in
lemma Processed.cons {handled : Log ι ν} {c : ι} {userId pkgId : Int}
    (h : Processed handled c userId pkgId) (e : Option ι × Packet ν × Packet ν) :
    Processed (e :: handled) c userId pkgId := by
  obtain ⟨req, rsp, hmem, hids⟩ := h
  exact ⟨req, rsp, mem_cons_of_mem e hmem, hids⟩

omit [DecidableEq ι] [Inhabited ν] in
lemma Sends.clientProcess {handled : Log ι ν} {cl : Client ν κ} (h : Sends handled cl)
    {sender : Option ι} {packet : Packet ν} (hpacket : Answered handled (sender, packet)) :
    Sends handled (clientProcess cl packet) := by
  obtain ⟨hbuild, hcrc, hacc, hcalled⟩ := h
  cases packet with
  | dataRsp rsp =>
    obtain ⟨hffff, hprocessed⟩ := hpacket
    simp only [Lora.clientProcess]
    split
    case isTrue hack =>
      have hdata : cl.sendBuffer.hasData = true := by grind
      refine ⟨fun _ => rfl, fun _ => rfl, by simp [hacc, hdata], fun p hp => ?_⟩
      rcases mem_append.mp hp with hp | hp
      · exact hcalled p hp
      · cases mem_singleton.mp hp
        rw [← hack.1, ← hack.2.1]
        exact hprocessed
    case isFalse => exact ⟨hbuild, hcrc, hacc, hcalled⟩
  | _ => grind [Lora.clientProcess, Client.handshake, Sends]

omit [DecidableEq ι] in
lemma kept_sends (c : ι) :
    Kept (κ := κ) (ν := ν) Answered (fun handled c' cl => c' = c → Sends handled cl)
      (fun _ => True) (Continues c) where
  packet_mono {e handled sent} h := by
    obtain ⟨sender, packet⟩ := sent
    cases packet with
    | dataRsp rsp =>
      obtain ⟨hcrc, c, hprocessed⟩ := h
      exact ⟨hcrc, c, hprocessed.cons e⟩
    | _ => exact h
  client_mono h hc := by
    obtain ⟨hbuild, hcrc, hacc, hcalled⟩ := h hc
    exact ⟨hbuild, hcrc, hacc, fun p hp => (hcalled p hp).imp fun c h => h.cons _⟩
  client {handled c' cl act cl'} hok h hpacket hstep hc := by
    subst hc
    have hsends := h rfl
    cases act with
    | receive packet =>
      obtain ⟨sender, hanswered⟩ := hpacket packet rfl
      have h' := hsends.clientProcess hanswered
      simp only [clientStep] at hstep
      obtain ⟨-, ⟨⟩⟩ := ite_none_right_eq_some.mp hstep
      exact ⟨h'.building, h'.crc, h'.accepted, h'.called⟩
    | storeCell =>
      obtain ⟨hbuild, hcrc, hacc, hcalled⟩ := hsends
      simp only [clientStep] at hstep
      grind [Client.cell, Sends]
    | adapterJoin | adapterCose => exact absurd rfl hok
    | _ =>
      obtain ⟨hbuild, hcrc, hacc, hcalled⟩ := hsends
      simp only [clientStep] at hstep
      grind [Sends]
  output {handled c' cl packet} _ hout := by
    rw [Client.output] at hout
    cases hs : cl.status <;> cases packet <;> simp_all [Answered]
  gateway {handled gw chance sender packet gw' reply} _ hpacket hgw := by
    refine ⟨True.intro, fun r hr => ?_⟩
    cases (gatewayProcess_answers hgw).2 r hr with
    | data req =>
      obtain ⟨c', rfl⟩ := hpacket
      exact ⟨rfl, c', req, _, mem_cons_self, rfl, rfl⟩
    | _ => trivial

lemma joined_holds {w w' : World ι ν κ} {c : ι} {netId : ν}
    (h : step { w with air := [], handled := [] } (.client c (.adapterJoin netId)) = some w') :
    Holds Answered (fun handled c' cl => c' = c → Sends handled cl) (fun _ => True) w' := by
  cases Option.some.inj h
  refine ⟨nofun, fun c' hc => ?_, True.intro⟩
  subst hc
  simp only [update_self]
  exact ⟨fun _ => rfl, fun _ => rfl, rfl, nofun⟩

def sendsOnce (c : Bool) (name : Nat) (userId : Fin (2 ^ 31)) : List (Act Bool Nat Nat) :=
  connects c name userId ++ [.client c (.sendc2g [1] (some 5)), .client c .storeCell,
    .client c .leaveRx, .client c .transmit,
    .gateway (some c) (.dataReq ⟨userId.val, 0, 0xFFFF, [1]⟩) ⟨0, true⟩,
    .client c (.receive (.dataRsp ⟨userId.val, 0, 25, 0xFFFF⟩)), .client c .nextPkgId]

def twoClients : Net Bool Nat where
  gatewayName := 0
  netId := 9
  clientName := fun c => if c then 2 else 1
  clientName_injective := by
    intro c c'
    revert c c'
    decide

def sendsBoth : List (Act Bool Nat Nat) :=
  sendsOnce false 1 7 ++ .client true (.adapterJoin 9) :: sendsOnce true 2 8

end Net
end Xiuos.Framework.Lora
