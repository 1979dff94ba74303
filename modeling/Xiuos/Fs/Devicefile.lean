import Xiuos.Lib.CString
import Xiuos.Lib.Run

/-! `iot-devicefile.c` over the buses of `bus.c`, with the descriptors of `iot-vfs.c`. -/

namespace Xiuos.Fs
open Lib Function List Option

structure Bus where
  busName : List UInt8
  devlink : List Nat
  drvlink : List Nat
  ownerHaldev : Option Nat
  ownerDriver : Option Nat

/-- `data` is the bus. `dev` and `drv` are kept by the run alone: what the file was opened on, which
may be nothing. -/
structure FileDescriptor where
  data : Option Nat
  pos : Int
  dev : Option Nat
  drv : Option Nat

/-- The calls of the functions of a device or a driver, the null pointer included. -/
inductive Access
  | open (dev : Option Nat)
  | close (dev : Option Nat)
  | read (dev : Option Nat) (pos : Int) (size : Nat)
  | write (dev : Option Nat) (pos : Int) (size : Nat)
  | configure (drv : Option Nat) (params : Option Nat) (cmd : Int)
  deriving DecidableEq

/-- `log` and the lists of claims are kept by the run alone: what was called, which device and which
driver an open or a mount put on a bus, and which device a driver was matched with. -/
structure Devicefiles where
  busLinklist : List Nat
  bus : Nat → Bus
  devName : Nat → List UInt8
  drvName : Nat → List UInt8
  privateData : Nat → Option Nat
  fdtable : Nat → Option FileDescriptor
  log : List Access
  devClaims : List (Nat × Option Nat)
  drvClaims : List (Nat × Option Nat)
  matched : List (Nat × Nat)

structure FsConfig where
  nameNumMax : Nat
  fdMax : Nat
  kernelDebug : Bool

variable (s : Devicefiles) (fd : Nat) (b : Nat)

namespace Devicefiles

def setBus (s : Devicefiles) (b : Nat) (f : Bus → Bus) : Devicefiles :=
  { s with bus := update s.bus b (f (s.bus b)) }

def setFd (s : Devicefiles) (fd : Nat) (f : Option FileDescriptor) : Devicefiles :=
  { s with fdtable := update s.fdtable fd f }

def access (s : Devicefiles) (a : Access) : Devicefiles := { s with log := s.log ++ [a] }

def setOwnerHaldev (s : Devicefiles) (b : Nat) (dev : Option Nat) : Devicefiles :=
  { s.setBus b fun bus => { bus with ownerHaldev := dev } with
    devClaims := (b, dev) :: s.devClaims }

def setOwnerDriver (s : Devicefiles) (b : Nat) (drv : Option Nat) : Devicefiles :=
  { s.setBus b fun bus => { bus with ownerDriver := drv } with
    drvClaims := (b, drv) :: s.drvClaims }

end Devicefiles

def underscore : UInt8 := 95

/-- Without an underscore the name in the buffer has no end. -/
def getBusName (path : CString) : Option (List UInt8) :=
  if underscore ∈ path.val then some (path.val.takeWhile (· ≠ underscore)) else none

def getDrvName (busName : List UInt8) : List UInt8 := busName ++ [95, 100, 114, 118]

def busFind (s : Devicefiles) (busName : List UInt8) : Option Nat :=
  s.busLinklist.find? fun b => (s.bus b).busName = busName

def busFindDriver (s : Devicefiles) (b : Nat) (drvName : List UInt8) : Option Nat :=
  (s.bus b).drvlink.find? fun drv => s.drvName drv = drvName

def busFindDevice (s : Devicefiles) (b : Nat) (devName : List UInt8) : Option Nat :=
  (s.bus b).devlink.find? fun dev => s.devName dev = devName

/-- Both belong to the bus `b`, whose name is compared with itself. What a null pointer leads to is
not the name of a bus. -/
def busMatchDrvDev (s : Devicefiles) (b : Nat) : Option Nat → Option Nat → Devicefiles
  | some drv, some dev =>
    let s := { s with
      privateData := update s.privateData drv (some dev)
      matched := (drv, dev) :: s.matched }
    (s.setOwnerDriver b (some drv)).setOwnerHaldev b (some dev)
  | _, _ => s

def busDevRet (ret : UInt32) : Int := if ret = 0 then 0 else 1

variable (cfg : FsConfig)

/-- `NULL_PARAM_CHECK` keeps its caller for ever with `KERNEL_DEBUG`, and checks nothing without. -/
def nullParamCheck (cfg : FsConfig) (missing : Bool) (s : Devicefiles) (r : Devicefiles × Int) :
    Devicefiles × Option Int :=
  if cfg.kernelDebug ∧ missing then (s, none) else (r.1, some r.2)

def newFileDescriptor (cfg : FsConfig) (s : Devicefiles) : Option Nat :=
  (List.range cfg.fdMax).find? fun fd => (s.fdtable fd).isNone

/-- What a path names: the bus, the driver and the device. `none` outside: a name does not fit. -/
def findDevice (cfg : FsConfig) (s : Devicefiles) (path : CString) :
    Option (Option (Nat × Option Nat × Option Nat)) := do
  let busName ← getBusName path
  if cfg.nameNumMax < busName.length + 5 then none
  else some ((busFind s busName).map fun b =>
    (b, busFindDriver s b (getDrvName busName), busFindDevice s b path.val))

/-- The owners of the bus are set to what was found before anything is checked. -/
def matchDevice (s : Devicefiles) (b : Nat) (drv dev : Option Nat) : Devicefiles :=
  busMatchDrvDev ((s.setOwnerDriver b drv).setOwnerHaldev b dev) b drv dev

/-- `open` on a device file. -/
def devicefileOpen (cfg : FsConfig) (s : Devicefiles) (path : CString) (ret : UInt32) :
    Option (Devicefiles × Option Int) :=
  match newFileDescriptor cfg s with
  | none => some (s, some (-1))
  | some fd => do
    match ← findDevice cfg s path with
    | none => some (s, some (-1))
    | some (b, drv, dev) =>
      let s := matchDevice s b drv dev
      let s' := s.access (.open dev)
      some (nullParamCheck cfg (drv.isNone || dev.isNone) s
        (if busDevRet ret < 0 then (s', -1) else (s'.setFd fd (some ⟨some b, 0, dev, drv⟩), fd)))

variable (f : FileDescriptor)

def fdDevice (s : Devicefiles) (f : FileDescriptor) : Option Nat := do
  let b ← f.data
  (s.bus b).ownerHaldev

def fdDriver (s : Devicefiles) (f : FileDescriptor) : Option Nat := do
  let b ← f.data
  (s.bus b).ownerDriver

/-- A call of the device of an open file, `k` being what follows it. -/
def onDevice (cfg : FsConfig) (s : Devicefiles) (fd : Nat)
    (a : FileDescriptor → Option Nat → Access)
    (k : FileDescriptor → Devicefiles → Devicefiles × Int) : Devicefiles × Option Int :=
  match s.fdtable fd with
  | none => (s, some (-1))
  | some f =>
    let dev := fdDevice s f
    nullParamCheck cfg dev.isNone s (k f (s.access (a f dev)))

def devicefileClose (cfg : FsConfig) (s : Devicefiles) (fd : Nat) (ret : UInt32) :
    Devicefiles × Option Int :=
  onDevice cfg s fd (fun _ => .close) fun _ s =>
    if busDevRet ret = 0 then (s.setFd fd none, 0) else (s, -1)

def devicefileRead (cfg : FsConfig) (s : Devicefiles) (fd len readLength : Nat) :
    Devicefiles × Option Int :=
  onDevice cfg s fd (fun f dev => .read dev f.pos len) fun f s =>
    (s.setFd fd (some { f with pos := f.pos + readLength }), readLength)

def devicefileWrite (cfg : FsConfig) (s : Devicefiles) (fd len : Nat) (ret : Int) :
    Devicefiles × Option Int :=
  onDevice cfg s fd (fun f dev => .write dev f.pos len) fun f s =>
    (s.setFd fd (some { f with pos := f.pos + ret }), if ret < 0 then -1 else ret)

def devicefileIoctl (cfg : FsConfig) (s : Devicefiles) (fd : Nat) (cmd : Int) (ret : UInt32) :
    Devicefiles × Option Int :=
  match s.fdtable fd with
  | none => (s, some (-1))
  | some f =>
    let drv := fdDriver s f
    nullParamCheck cfg drv.isNone s
      (s.access (.configure drv (drv.bind s.privateData) cmd), busDevRet ret)

/-- What `MountFilesystem` does to the bus, when the device and the driver are named; `opens` says
whether the checks that follow get it to the call of `BusDevOpen`. -/
def mountFilesystem (s : Devicefiles) (busName devName drvName : CString) (opens : Bool) :
    Devicefiles :=
  match busFind s busName.val with
  | none => s
  | some b =>
    match busFindDevice s b devName.val with
    | none => s
    | some dev =>
      let s := s.setOwnerHaldev b (some dev)
      match busFindDriver s b drvName.val with
      | none => s
      | some drv =>
        let s := s.setOwnerDriver b (some drv)
        if opens then s.access (.open (some dev)) else s

inductive FileOp
  | open (path : CString) (ret : UInt32)
  | close (fd : Nat) (ret : UInt32)
  | read (fd len readLength : Nat)
  | write (fd len : Nat) (ret : Int)
  | ioctl (fd : Nat) (cmd : Int) (ret : UInt32)
  | mount (busName devName drvName : CString) (opens : Bool)

/-- A call that does not return has done its step all the same. -/
def fileStep (cfg : FsConfig) (s : Devicefiles) : FileOp → Option Devicefiles
  | .open path ret => (devicefileOpen cfg s path ret).map (·.1)
  | .close fd ret => some (devicefileClose cfg s fd ret).1
  | .read fd len readLength => some (devicefileRead cfg s fd len readLength).1
  | .write fd len ret => some (devicefileWrite cfg s fd len ret).1
  | .ioctl fd cmd ret => some (devicefileIoctl cfg s fd cmd ret).1
  | .mount busName devName drvName opens => some (mountFilesystem s busName devName drvName opens)

section
variable {cfg : FsConfig} {s s' : Devicefiles} {fd : Nat} {f : FileDescriptor}

def OnOwn (s : Devicefiles) (op : FileOp) (s' : Devicefiles) : Prop :=
  match op with
  | .close fd _ => ∀ f ∈ s.fdtable fd, f.dev.isSome ∧ s'.log = s.log ++ [.close f.dev]
  | .read fd len _ => ∀ f ∈ s.fdtable fd, f.dev.isSome ∧ s'.log = s.log ++ [.read f.dev f.pos len]
  | .write fd len _ => ∀ f ∈ s.fdtable fd, f.dev.isSome ∧ s'.log = s.log ++ [.write f.dev f.pos len]
  | .ioctl fd cmd _ => ∀ f ∈ s.fdtable fd, (f.dev.isSome ∧ f.drv.isSome) ∧
    s'.log = s.log ++ [.configure f.drv f.dev cmd]
  | .open _ _ => True
  | .mount _ _ _ _ => True

def LastDev (s : Devicefiles) (f : FileDescriptor) : Prop :=
  f.dev.isSome ∧ (f.data.bind fun b => s.devClaims.lookup b) = some f.dev

def LastDrv (s : Devicefiles) (f : FileDescriptor) : Prop :=
  (f.dev.isSome ∧ f.drv.isSome) ∧ (f.data.bind fun b => s.drvClaims.lookup b) = some f.drv ∧
    (f.drv.bind fun drv => s.matched.lookup drv) = f.dev

def Undisturbed (s : Devicefiles) : FileOp → Prop
  | .close fd _ => ∀ f ∈ s.fdtable fd, LastDev s f
  | .read fd _ _ => ∀ f ∈ s.fdtable fd, LastDev s f
  | .write fd _ _ => ∀ f ∈ s.fdtable fd, LastDev s f
  | .ioctl fd _ _ => ∀ f ∈ s.fdtable fd, LastDrv s f
  | .open _ _ => True
  | .mount _ _ _ _ => True

instance (s : Devicefiles) (op : FileOp) : Decidable (Undisturbed s op) :=
  match op with
  | .close fd _ | .read fd _ _ | .write fd _ _ =>
    inferInstanceAs (Decidable (∀ f ∈ s.fdtable fd, _ ∧ _ = _))
  | .ioctl fd _ _ => inferInstanceAs (Decidable (∀ f ∈ s.fdtable fd, (_ ∧ _) ∧ _ = _ ∧ _ = _))
  | .open _ _ | .mount _ _ _ _ => isTrue trivial

structure Claimed (s : Devicefiles) (f : FileDescriptor) (b : Nat) : Prop where
  data : f.data = some b
  dev : (s.devClaims.lookup b).isSome
  drv : (s.drvClaims.lookup b).isSome
  matched : ∀ drv, f.drv = some drv → f.dev.isSome → (s.matched.lookup drv).isSome

structure FileInv (s : Devicefiles) : Prop where
  dev : ∀ b d, s.devClaims.lookup b = some d → (s.bus b).ownerHaldev = d
  drv : ∀ b d, s.drvClaims.lookup b = some d → (s.bus b).ownerDriver = d
  matched : ∀ v d, s.matched.lookup v = some d → s.privateData v = some d
  fds : ∀ fd f, s.fdtable fd = some f → ∃ b, Claimed s f b

lemma lookup_cons_isSome {α : Type} {l : List (Nat × α)} {k : Nat} (h : (l.lookup k).isSome)
    (p : Nat × α) : ((p :: l).lookup k).isSome := by
  rw [lookup_cons]
  split
  · rfl
  · exact h

lemma matchDevice_claimed (s : Devicefiles) (b : Nat) (drv dev : Option Nat) :
    Claimed (matchDevice s b drv dev) ⟨some b, 0, dev, drv⟩ b := by
  cases drv <;> cases dev <;> constructor <;>
    simp [matchDevice, busMatchDrvDev, Devicefiles.setOwnerHaldev, Devicefiles.setOwnerDriver,
      Devicefiles.setBus]

namespace FileInv
variable (hi : FileInv s)
include hi

lemma access (a : Access) : FileInv (s.access a) where
  dev := hi.dev
  drv := hi.drv
  matched := hi.matched
  fds fd f h := by
    obtain ⟨b, hb⟩ := hi.fds fd f h
    exact ⟨b, hb.data, hb.dev, hb.drv, hb.matched⟩

lemma setOwnerHaldev (b : Nat) (d : Option Nat) : FileInv (s.setOwnerHaldev b d) where
  dev b' d' h := by
    by_cases hb : b' = b
    · subst hb
      simpa [Devicefiles.setOwnerHaldev, Devicefiles.setBus] using h
    · simp only [Devicefiles.setOwnerHaldev, Devicefiles.setBus, lookup_cons,
        beq_false_of_ne hb, update_of_ne hb] at h ⊢
      exact hi.dev b' d' h
  drv b' d' h := by
    have hdrv := hi.drv b' d' h
    by_cases hb : b' = b
    · subst hb
      simpa [Devicefiles.setOwnerHaldev, Devicefiles.setBus] using hdrv
    · simpa [Devicefiles.setOwnerHaldev, Devicefiles.setBus, hb] using hdrv
  matched := hi.matched
  fds fd f h := by
    obtain ⟨b', hb⟩ := hi.fds fd f h
    exact ⟨b', hb.data, lookup_cons_isSome hb.dev _, hb.drv, hb.matched⟩

lemma setOwnerDriver (b : Nat) (d : Option Nat) : FileInv (s.setOwnerDriver b d) where
  dev b' d' h := by
    have hdev := hi.dev b' d' h
    by_cases hb : b' = b
    · subst hb
      simpa [Devicefiles.setOwnerDriver, Devicefiles.setBus] using hdev
    · simpa [Devicefiles.setOwnerDriver, Devicefiles.setBus, hb] using hdev
  drv b' d' h := by
    by_cases hb : b' = b
    · subst hb
      simpa [Devicefiles.setOwnerDriver, Devicefiles.setBus] using h
    · simp only [Devicefiles.setOwnerDriver, Devicefiles.setBus, lookup_cons,
        beq_false_of_ne hb, update_of_ne hb] at h ⊢
      exact hi.drv b' d' h
  matched := hi.matched
  fds fd f h := by
    obtain ⟨b', hb⟩ := hi.fds fd f h
    exact ⟨b', hb.data, hb.dev, lookup_cons_isSome hb.drv _, hb.matched⟩

lemma pair (drv dev : Nat) : FileInv { s with
    privateData := update s.privateData drv (some dev)
    matched := (drv, dev) :: s.matched } where
  dev := hi.dev
  drv := hi.drv
  matched v d h := by
    by_cases hv : v = drv
    · subst hv
      simpa using h
    · simp only [lookup_cons, beq_false_of_ne hv, update_of_ne hv] at h ⊢
      exact hi.matched v d h
  fds fd f h := by
    obtain ⟨b, hb⟩ := hi.fds fd f h
    exact ⟨b, hb.data, hb.dev, hb.drv, fun v hv hd => lookup_cons_isSome (hb.matched v hv hd) _⟩

lemma matchDevice (b : Nat) (drv dev : Option Nat) : FileInv (Fs.matchDevice s b drv dev) := by
  have howners := (hi.setOwnerDriver b drv).setOwnerHaldev b dev
  cases drv with
  | none => exact howners
  | some drv =>
    cases dev with
    | none => exact howners
    | some dev =>
      exact ((howners.pair drv dev).setOwnerDriver b (some drv)).setOwnerHaldev b (some dev)

lemma setFd (fd : Nat) {f : Option FileDescriptor}
    (hf : ∀ f', f = some f' → ∃ b, Claimed s f' b) : FileInv (s.setFd fd f) where
  dev := hi.dev
  drv := hi.drv
  matched := hi.matched
  fds fd' f' h := by
    by_cases hfd : fd' = fd
    · subst hfd
      simp only [Devicefiles.setFd, update_self] at h
      obtain ⟨b, hb⟩ := hf f' h
      exact ⟨b, hb.data, hb.dev, hb.drv, hb.matched⟩
    · simp only [Devicefiles.setFd, update_of_ne hfd] at h
      obtain ⟨b, hb⟩ := hi.fds fd' f' h
      exact ⟨b, hb.data, hb.dev, hb.drv, hb.matched⟩

lemma mountFilesystem (busName devName drvName : CString) (opens : Bool) :
    FileInv (Fs.mountFilesystem s busName devName drvName opens) := by
  rw [Fs.mountFilesystem]
  cases busFind s busName.val with
  | none => exact hi
  | some b =>
    cases hdev : busFindDevice s b devName.val with
    | none => simpa only [hdev] using hi
    | some dev =>
      have hi := hi.setOwnerHaldev b (some dev)
      simp only [hdev]
      cases busFindDriver (s.setOwnerHaldev b (some dev)) b drvName.val with
      | none => exact hi
      | some drv =>
        have hi := hi.setOwnerDriver b (some drv)
        cases opens with
        | false => exact hi
        | true => exact hi.access _

lemma nullParamCheck {missing : Bool} {r : Devicefiles × Int} (hr : FileInv r.1) :
    FileInv (Fs.nullParamCheck cfg missing s r).1 := by
  rw [Fs.nullParamCheck]
  split
  · exact hi
  · exact hr

lemma devicefileOpen {path : CString} {ret : UInt32} {r : Devicefiles × Option Int}
    (h : Fs.devicefileOpen cfg s path ret = some r) : FileInv r.1 := by
  rw [Fs.devicefileOpen] at h
  split at h
  · cases h
    exact hi
  obtain ⟨found, -, h⟩ := bind_eq_some_iff.mp h
  split at h
  · cases h
    exact hi
  rename_i b drv dev
  cases h
  have hmatch := hi.matchDevice b drv dev
  refine hmatch.nullParamCheck ?_
  split
  · exact hmatch.access _
  · refine (hmatch.access _).setFd _ ?_
    rintro f ⟨⟩
    obtain ⟨hdata, hdev, hdrv, hpair⟩ := matchDevice_claimed s b drv dev
    exact ⟨b, hdata, hdev, hdrv, hpair⟩

/-- What a call of the device of a file does, whatever follows it. -/
lemma onDevice {a : FileDescriptor → Option Nat → Access}
    {k : FileDescriptor → Devicefiles → Devicefiles × Int} (ha : ∀ f, Injective (a f))
    (hk : ∀ f s, (k f s).1.log = s.log)
    (hinv : ∀ f s, s.fdtable fd = some f → FileInv s → FileInv (k f s).1) :
    FileInv (Fs.onDevice cfg s fd a k).1 ∧
      ((∀ f ∈ s.fdtable fd, f.dev.isSome ∧
          (Fs.onDevice cfg s fd a k).1.log = s.log ++ [a f f.dev]) ↔
        ∀ f ∈ s.fdtable fd, LastDev s f) := by
  rw [Fs.onDevice]
  cases hf : s.fdtable fd with
  | none => exact ⟨hi, by simp⟩
  | some f =>
    obtain ⟨b, hb⟩ := hi.fds fd f hf
    obtain ⟨dev, hdev⟩ := isSome_iff_exists.mp hb.dev
    have howner : fdDevice s f = dev := by simp [fdDevice, hb.data, hi.dev b dev hdev]
    refine ⟨hi.nullParamCheck (hinv f _ hf (hi.access _)), ?_⟩
    simp only [mem_some_iff, forall_eq', LastDev, hb.data, bind_some, hdev, howner,
      Option.some.injEq]
    refine and_congr_right fun hsome => ?_
    rw [Fs.nullParamCheck]
    split
    · rename_i hdebug
      have hnone : dev = none := by simpa using hdebug.2
      refine iff_of_false (by simp) fun heq => ?_
      rw [← heq, hnone] at hsome
      cases hsome
    · simp [hk, Devicefiles.access, (ha f).eq_iff]

lemma devicefileIoctl (cmd : Int) (ret : UInt32) :
    FileInv (Fs.devicefileIoctl cfg s fd cmd ret).1 ∧
      ((∀ f ∈ s.fdtable fd, (f.dev.isSome ∧ f.drv.isSome) ∧
          (Fs.devicefileIoctl cfg s fd cmd ret).1.log = s.log ++ [.configure f.drv f.dev cmd]) ↔
        ∀ f ∈ s.fdtable fd, LastDrv s f) := by
  rw [Fs.devicefileIoctl]
  cases hf : s.fdtable fd with
  | none => exact ⟨hi, by simp⟩
  | some f =>
    obtain ⟨b, hb⟩ := hi.fds fd f hf
    obtain ⟨drv, hdrv⟩ := isSome_iff_exists.mp hb.drv
    have howner : fdDriver s f = drv := by simp [fdDriver, hb.data, hi.drv b drv hdrv]
    refine ⟨hi.nullParamCheck (hi.access _), ?_⟩
    simp only [mem_some_iff, forall_eq', LastDrv, hb.data, bind_some, hdrv, howner,
      Option.some.injEq]
    refine and_congr_right fun ⟨hdevs, hdrvs⟩ => ?_
    obtain ⟨v, hv⟩ := isSome_iff_exists.mp hdrvs
    obtain ⟨d, hd⟩ := isSome_iff_exists.mp (hb.matched v hv hdevs)
    have hdata := hi.matched v d hd
    rw [Fs.nullParamCheck, hv]
    split
    · rename_i hdebug
      have hnone : drv = none := by simpa using hdebug.2
      exact iff_of_false (by simp) (by simp [hnone])
    · simp only [Devicefiles.access, append_cancel_left_eq, cons.injEq, Access.configure.injEq,
        and_true, bind_some, hd]
      refine and_congr_right fun heq => ?_
      rw [heq, bind_some, hdata]

end FileInv

lemma FileInv.move (hi : FileInv s) (hf : s.fdtable fd = some f) (pos : Int) :
    FileInv (s.setFd fd (some { f with pos })) := by
  obtain ⟨b, hb⟩ := hi.fds fd f hf
  refine hi.setFd fd ?_
  rintro f' ⟨⟩
  exact ⟨b, hb.data, hb.dev, hb.drv, hb.matched⟩

lemma FileInv.spec (hi : FileInv s) {op : FileOp} (h : fileStep cfg s op = some s') :
    FileInv s' ∧ (OnOwn s op s' ↔ Undisturbed s op) := by
  cases op with
  | «open» path ret =>
    obtain ⟨r, hr, rfl⟩ := map_eq_some_iff.mp h
    exact ⟨hi.devicefileOpen hr, Iff.rfl⟩
  | mount busName devName drvName opens =>
    cases h
    exact ⟨hi.mountFilesystem busName devName drvName opens, Iff.rfl⟩
  | close fd ret =>
    cases h
    refine hi.onDevice (fun f dev dev' heq => by simpa using heq) (fun f s => ?_)
      fun f s hf hs => ?_
    · split <;> rfl
    · split
      · exact hs.setFd fd (by simp)
      · exact hs
  | read fd len readLength =>
    cases h
    exact hi.onDevice (fun f dev dev' heq => by simpa using heq) (fun f s => rfl)
      fun f s hf hs => hs.move hf _
  | write fd len ret =>
    cases h
    exact hi.onDevice (fun f dev dev' heq => by simpa using heq) (fun f s => rfl)
      fun f s hf hs => hs.move hf _
  | ioctl fd cmd ret =>
    cases h
    exact hi.devicefileIoctl cmd ret

structure NoFiles (s : Devicefiles) : Prop where
  fdtable : ∀ fd, s.fdtable fd = none
  devClaims : s.devClaims = []
  drvClaims : s.drvClaims = []
  matched : s.matched = []

lemma NoFiles.inv (h : NoFiles s) : FileInv s where
  dev := by simp [h.devClaims]
  drv := by simp [h.drvClaims]
  matched := by simp [h.matched]
  fds := by simp [h.fdtable]

theorem fileRun_onOwn_iff (hs : NoFiles s) (ops : List FileOp) :
    Along (fileStep cfg) OnOwn s ops ↔ Each (fileStep cfg) Undisturbed s ops :=
  along_iff_each (P := fun _ => True) (fun hi h => (hi.spec h).1) (fun _ _ _ _ => True.intro)
    (fun hi _ h => (hi.spec h).2) hs.inv True.intro

end

def sampleFiles : Devicefiles where
  busLinklist := [0]
  bus _ := ⟨[97], [1, 2], [3], none, none⟩
  devName dev := if dev = 1 then [97, 95, 120] else [97, 95, 121]
  drvName _ := [97, 95, 100, 114, 118]
  privateData _ := none
  fdtable _ := none
  log := []
  devClaims := []
  drvClaims := []
  matched := []

lemma sampleFiles_noFiles : NoFiles sampleFiles := ⟨fun _ => rfl, rfl, rfl, rfl⟩

theorem fileRun_onOwn_iff_sample :
    Along (fileStep ⟨32, 8, false⟩) OnOwn sampleFiles
      [.open ⟨[97, 95, 120], by decide⟩ 0, .read 0 4 4, .ioctl 0 1 0, .close 0 0] := by
  rw [fileRun_onOwn_iff sampleFiles_noFiles]
  decide +kernel

theorem fileRun_reads_other :
    ∃ s s', runs (fileStep ⟨32, 8, false⟩) sampleFiles
        [.open ⟨[97, 95, 120], by decide⟩ 0, .open ⟨[97, 95, 121], by decide⟩ 0] = some s ∧
      (s.fdtable 0).map (·.dev) = some (some 1) ∧
      fileStep ⟨32, 8, false⟩ s (.read 0 4 4) = some s' ∧ s'.log = s.log ++ [.read (some 2) 0 4] ∧
      ¬ OnOwn s (.read 0 4 4) s' := by
  have hrun : (do
      let s ← runs (fileStep ⟨32, 8, false⟩) sampleFiles
        [.open ⟨[97, 95, 120], by decide⟩ 0, .open ⟨[97, 95, 121], by decide⟩ 0]
      let s' ← fileStep ⟨32, 8, false⟩ s (.read 0 4 4)
      some (decide ((s.fdtable 0).map (·.dev) = some (some 1) ∧
        s'.log = s.log ++ [.read (some 2) 0 4]))) = some true := by
    decide +kernel
  obtain ⟨s, hs, h⟩ := bind_eq_some_iff.mp hrun
  obtain ⟨s', hs', h⟩ := bind_eq_some_iff.mp h
  obtain ⟨hdev, hlog⟩ := of_decide_eq_true (Option.some.inj h)
  refine ⟨s, s', hs, hdev, hs', hlog, fun hown => ?_⟩
  obtain ⟨f, hf, hfdev⟩ := map_eq_some_iff.mp hdev
  have hread := (hown f hf).2
  rw [hlog, hfdev] at hread
  simp at hread

end Xiuos.Fs
