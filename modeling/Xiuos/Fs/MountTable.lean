import Xiuos.Fs.Devicefile
import Xiuos.Fs.Mount

/-! `MountFilesystem` of `iot-vfs.c` with all its exits. -/

namespace Xiuos.Fs
open Lib Function Devicefiles

def enxio : Int := 6

def enomem : Int := 12

def einval : Int := 22

def fstypeEnd : Nat := 3

structure MountArgs where
  busName : Option CString
  devName : Option CString
  drvName : Option CString
  fsType : Nat
  path : Option CString

/-- What the functions return that the call meets: the `mount` functions of the registered file
systems, the functions of the devices, and the two allocations. -/
structure MountCalls where
  fstable : Nat → Option (Option Int)
  opens : Nat → Option UInt32
  closes : Nat → Option UInt32
  allocMp : Bool
  allocPath : Bool

structure MountTable where
  files : Devicefiles
  opened : Nat → Bool
  mntList : List MountPoint

def MountPoint.of (path : CString) : MountPoint := ⟨path, path.length, rfl⟩

namespace MountTable
variable (calls : MountCalls) (s : MountTable)

def busDevOpen (s : MountTable) (dev : Nat) : MountTable × Int :=
  match calls.opens dev with
  | none => (s, 0)
  | some ret =>
    if busDevRet ret ≠ 0 then (s, busDevRet ret)
    else ({ s with opened := update s.opened dev true }, 0)

def busDevClose (s : MountTable) (dev : Nat) : MountTable :=
  match calls.closes dev with
  | none => s
  | some ret =>
    if busDevRet ret ≠ 0 then s else { s with opened := update s.opened dev false }

def findOwners (s : MountTable) (busName devName drvName : CString) : MountTable × Option Nat :=
  match busFind s.files busName.val with
  | none => (s, none)
  | some b =>
    match busFindDevice s.files b devName.val with
    | none => (s, none)
    | some dev =>
      let s := { s with files := s.files.setOwnerHaldev b (some dev) }
      match busFindDriver s.files b drvName.val with
      | none => (s, none)
      | some drv => ({ s with files := s.files.setOwnerDriver b (some drv) }, some dev)

def checkMount (mntList : List MountPoint) (args : MountArgs) : Except Int (MountPoint × Int) :=
  if args.fsType ≥ fstypeEnd then .error (-einval)
  else
    match calls.fstable args.fsType, args.path with
    | none, _ => .error (-einval)
    | some _, none => .error (-einval)
    | some mount, some path =>
      if path.byte 0 ≠ slash then .error (-einval)
      else if calls.allocMp = false then .error (-enomem)
      else if calls.allocPath = false then .error (-enomem)
      else
        match mount with
        | none => .error (-einval)
        | some ret =>
          if mntList.any fun itr => path.length = itr.mntPointLen ∧
              CString.strncmpEq path.length path.val itr.mntPoint.val then .error (-einval)
          else .ok (.of path, ret)

def openDev (s : MountTable) : Option Nat → MountTable × Int
  | none => (s, 0)
  | some dev => s.busDevOpen calls dev

def closeDev (s : MountTable) : Option Nat → MountTable
  | none => s
  | some dev => s.busDevClose calls dev

variable (args : MountArgs)

def attach (s : MountTable) (args : MountArgs) (dev : Option Nat) : MountTable × Int :=
  match checkMount calls s.mntList args with
  | .error ret => (s, ret)
  | .ok (mp, ret) =>
    if (s.openDev calls dev).2 ≠ 0 then ((s.openDev calls dev).1, -einval)
    else
      let s := (s.openDev calls dev).1
      if ret < 0 then (s.closeDev calls dev, ret)
      else ({ s with mntList := s.mntList ++ [mp] }, ret)

def mountFilesystem (s : MountTable) (args : MountArgs) : MountTable × Int :=
  match args.busName, args.devName, args.drvName with
  | some busName, some devName, some drvName =>
    match s.findOwners busName devName drvName with
    | (s, none) => (s, -enxio)
    | (s, some dev) => s.attach calls args (some dev)
  | _, _, _ => s.attach calls args none

structure Unchanged (s s' : MountTable) : Prop where
  mntList : s'.mntList = s.mntList
  owners : ∀ b, (s'.files.bus b).ownerHaldev = (s.files.bus b).ownerHaldev ∧
    (s'.files.bus b).ownerDriver = (s.files.bus b).ownerDriver
  opened : s'.opened = s.opened

def OwnersKept (s : MountTable) (busName devName drvName : CString) : Prop :=
  ∀ b dev, busFind s.files busName.val = some b → busFindDevice s.files b devName.val = some dev →
    (s.files.bus b).ownerHaldev = some dev ∧
      ∀ drv, busFindDriver s.files b drvName.val = some drv →
        (s.files.bus b).ownerDriver = some drv

def reopened (s : MountTable) (dev : Nat) : Bool :=
  if calls.closes dev = some 0 then false
  else if calls.opens dev = some 0 then true
  else s.opened dev

def OpenKept (s : MountTable) (args : MountArgs) (dev : Nat) : Prop :=
  ∀ mp ret, checkMount calls s.mntList args = .ok (mp, ret) → ret < 0 →
    (s.busDevOpen calls dev).2 = 0 → s.reopened calls dev = s.opened dev

def Kept (s : MountTable) (args : MountArgs) : Prop :=
  ∀ busName devName drvName, args.busName = some busName → args.devName = some devName →
    args.drvName = some drvName → s.OwnersKept busName devName drvName ∧
      ∀ dev, (s.findOwners busName devName drvName).2 = some dev → s.OpenKept calls args dev

section
variable {calls} {s : MountTable} {args : MountArgs} {dev : Nat}

lemma findOwners_fst (s : MountTable) (busName devName drvName : CString) :
    (s.findOwners busName devName drvName).1 =
      { s with files := Fs.mountFilesystem s.files busName devName drvName false } := by
  rw [findOwners, Fs.mountFilesystem]
  cases busFind s.files busName.val with
  | none => rfl
  | some b =>
    cases hdev : busFindDevice s.files b devName.val with
    | none => simp [hdev]
    | some dev =>
      cases hdrv : busFindDriver (s.files.setOwnerHaldev b (some dev)) b drvName.val with
      | none => simp [hdev, hdrv]
      | some drv => simp [hdev, hdrv]

lemma busFindDriver_setOwnerHaldev (s : Devicefiles) (b : Nat) (dev : Option Nat)
    (drvName : List UInt8) :
    busFindDriver (s.setOwnerHaldev b dev) b drvName = busFindDriver s b drvName := by
  have hlink : ((s.setOwnerHaldev b dev).bus b).drvlink = (s.bus b).drvlink := by
    simp [setOwnerHaldev, setBus]
  rw [busFindDriver, hlink]
  rfl

lemma owners_iff (s : MountTable) (busName devName drvName : CString) :
    (∀ b, ((Fs.mountFilesystem s.files busName devName drvName false).bus b).ownerHaldev =
        (s.files.bus b).ownerHaldev ∧
      ((Fs.mountFilesystem s.files busName devName drvName false).bus b).ownerDriver =
        (s.files.bus b).ownerDriver) ↔ s.OwnersKept busName devName drvName := by
  rw [Fs.mountFilesystem, OwnersKept]
  cases hbus : busFind s.files busName.val with
  | none => simp
  | some b =>
    cases hdev : busFindDevice s.files b devName.val with
    | none =>
      refine iff_of_true (by simp [hdev]) ?_
      rintro _ dev ⟨⟩ h
      exact absurd (hdev.symm.trans h) (by simp)
    | some dev =>
      have hdrv' := busFindDriver_setOwnerHaldev s.files b (some dev) drvName.val
      cases hdrv : busFindDriver s.files b drvName.val with
      | none =>
        simp only [hdev, hdrv', hdrv]
        constructor
        · rintro h _ _ ⟨⟩ hfound
          cases hdev.symm.trans hfound
          refine ⟨?_, fun drv h => absurd (hdrv.symm.trans h) (by simp)⟩
          simpa [setOwnerHaldev, setBus] using (h b).1.symm
        · intro h b'
          have hown := (h b dev rfl hdev).1
          by_cases hb : b' = b
          · subst hb
            simp [setOwnerHaldev, setBus, hown]
          · simp [setOwnerHaldev, setBus, hb]
      | some drv =>
        simp only [hdev, hdrv', hdrv, Bool.false_eq_true, if_false]
        constructor
        · rintro h _ _ ⟨⟩ hfound
          cases hdev.symm.trans hfound
          have hb := h b
          simp only [setOwnerDriver, setOwnerHaldev, setBus,
            update_self] at hb
          refine ⟨hb.1.symm, fun drv' h => ?_⟩
          cases hdrv.symm.trans h
          exact hb.2.symm
        · intro h b'
          obtain ⟨hown, howner⟩ := h b dev rfl hdev
          by_cases hb : b' = b
          · subst hb
            simp [setOwnerDriver, setOwnerHaldev, setBus, hown,
              howner drv hdrv]
          · simp [setOwnerDriver, setOwnerHaldev, setBus, hb]

lemma busDevOpen_failed (h : (s.busDevOpen calls dev).2 ≠ 0) :
    (s.busDevOpen calls dev).1 = s := by
  rw [busDevOpen] at h ⊢
  split
  · rfl
  · rename_i ret hret
    rw [hret] at h
    by_cases hzero : busDevRet ret ≠ 0
    · rw [if_pos hzero]
    · simp [hzero] at h

lemma busDevOpen_files (calls : MountCalls) (s : MountTable) (dev : Nat) :
    (s.busDevOpen calls dev).1.files = s.files ∧
      (s.busDevOpen calls dev).1.mntList = s.mntList := by
  rw [busDevOpen]
  split
  · exact ⟨rfl, rfl⟩
  · split
    · exact ⟨rfl, rfl⟩
    · exact ⟨rfl, rfl⟩

lemma busDevClose_files (calls : MountCalls) (s : MountTable) (dev : Nat) :
    (s.busDevClose calls dev).files = s.files ∧ (s.busDevClose calls dev).mntList = s.mntList := by
  rw [busDevClose]
  split
  · exact ⟨rfl, rfl⟩
  · split
    · exact ⟨rfl, rfl⟩
    · exact ⟨rfl, rfl⟩

lemma openKept_files (calls : MountCalls) (s : MountTable) (files : Devicefiles)
    (args : MountArgs) (dev : Nat) :
    OpenKept calls { s with files } args dev ↔ OpenKept calls s args dev := by
  have hret : (busDevOpen calls { s with files } dev).2 = (s.busDevOpen calls dev).2 := by
    rw [busDevOpen, busDevOpen]
    split
    · rfl
    · split
      · rfl
      · rfl
  rw [OpenKept, OpenKept, hret]
  rfl

lemma opened_reopen (h : (s.busDevOpen calls dev).2 = 0) :
    ((s.busDevOpen calls dev).1.busDevClose calls dev).opened =
      update s.opened dev (s.reopened calls dev) := by
  have hopen : (s.busDevOpen calls dev).1.opened =
      update s.opened dev (if calls.opens dev = some 0 then true else s.opened dev) := by
    rw [busDevOpen] at h ⊢
    cases hret : calls.opens dev with
    | none => simp
    | some ret =>
      rw [hret] at h
      by_cases hzero : ret = 0
      · simp [hzero, busDevRet]
      · simp [hzero, busDevRet] at h
  rw [busDevClose, reopened]
  cases hret : calls.closes dev with
  | none => simpa using hopen
  | some ret =>
    by_cases hzero : ret = 0
    · simp [hzero, busDevRet, hopen]
    · simpa [hzero, busDevRet] using hopen

lemma attach_failed {found : Option Nat} (h : (s.attach calls args found).2 < 0) :
    (s.attach calls args found).1.files = s.files ∧
      (s.attach calls args found).1.mntList = s.mntList ∧
      ((s.attach calls args found).1.opened = s.opened ↔
        ∀ dev, found = some dev → s.OpenKept calls args dev) := by
  rw [attach] at h ⊢
  cases hcheck : checkMount calls s.mntList args with
  | error ret =>
    refine ⟨rfl, rfl, iff_of_true rfl fun dev _ mp ret hok => ?_⟩
    exact absurd (hcheck.symm.trans hok) (by simp)
  | ok mount =>
    obtain ⟨mp, ret⟩ := mount
    rw [hcheck] at h
    cases found with
    | none =>
      have hret : ret < 0 := by
        by_contra hret
        simp [openDev, hret] at h
      simp [openDev, closeDev, hret]
    | some dev =>
      simp only [openDev, closeDev] at h ⊢
      by_cases hopen : (s.busDevOpen calls dev).2 = 0
      · have hret : ret < 0 := by
          by_contra hret
          simp [hopen, hret] at h
        simp only [hopen, ne_eq, not_true_eq_false, if_false, hret, if_true]
        obtain ⟨hfiles, hlist⟩ := busDevOpen_files calls s dev
        obtain ⟨hfiles', hlist'⟩ := busDevClose_files calls (s.busDevOpen calls dev).1 dev
        refine ⟨hfiles'.trans hfiles, hlist'.trans hlist, ?_⟩
        rw [opened_reopen hopen, update_eq_self_iff]
        constructor
        · rintro hkept _ ⟨⟩ mp' ret' - - -
          exact hkept
        · intro hkept
          exact hkept dev rfl mp ret hcheck hret hopen
      · simp only [ne_eq, hopen, not_false_eq_true, if_true]
        rw [busDevOpen_failed hopen]
        refine ⟨rfl, rfl, iff_of_true rfl ?_⟩
        rintro _ ⟨⟩ mp' ret' - - hzero
        exact absurd hzero hopen

end

lemma mountFilesystem_unnamed {args : MountArgs}
    (h : args.busName = none ∨ args.devName = none ∨ args.drvName = none) :
    s.mountFilesystem calls args = s.attach calls args none := by
  rw [mountFilesystem]
  split
  · simp_all
  · rfl

theorem mountFilesystem_unchanged_iff (s : MountTable) (args : MountArgs) :
    ((s.mountFilesystem calls args).2 < 0 → Unchanged s (s.mountFilesystem calls args).1) ↔
      ((s.mountFilesystem calls args).2 < 0 → s.Kept calls args) := by
  refine imp_congr_right fun hneg => ?_
  by_cases hnamed : args.busName = none ∨ args.devName = none ∨ args.drvName = none
  · have hkept : s.Kept calls args := by
      intro busName devName drvName hb hd hv
      simp [hb, hd, hv] at hnamed
    rw [mountFilesystem_unnamed calls s hnamed] at hneg ⊢
    obtain ⟨hfiles, hlist, hopened⟩ := attach_failed hneg
    exact iff_of_true ⟨hlist, fun b => by simp [hfiles], hopened.mpr (by simp)⟩ hkept
  · simp only [not_or, Option.ne_none_iff_exists'] at hnamed
    obtain ⟨⟨busName, hb⟩, ⟨devName, hd⟩, drvName, hv⟩ := hnamed
    have hkept : s.Kept calls args ↔ s.OwnersKept busName devName drvName ∧
        ∀ dev, (s.findOwners busName devName drvName).2 = some dev → s.OpenKept calls args dev := by
      constructor
      · intro h
        exact h busName devName drvName hb hd hv
      · rintro h _ _ _ hb' hd' hv'
        cases hb.symm.trans hb'
        cases hd.symm.trans hd'
        cases hv.symm.trans hv'
        exact h
    have hfst := findOwners_fst s busName devName drvName
    rw [hkept, ← owners_iff]
    simp only [mountFilesystem, hb, hd, hv] at hneg ⊢
    cases hfound : s.findOwners busName devName drvName with
    | mk t found =>
      rw [hfound] at hneg hfst
      simp only at hfst
      subst hfst
      cases found with
      | none => exact ⟨fun h => ⟨h.owners, by simp⟩, fun h => ⟨rfl, h.1, rfl⟩⟩
      | some dev =>
        obtain ⟨hfiles, hlist, hopened⟩ := attach_failed hneg
        simp only [openKept_files] at hopened
        constructor
        · intro h
          refine ⟨fun b => ?_, hopened.mp h.opened⟩
          have hown := h.owners b
          rw [hfiles] at hown
          exact hown
        · rintro ⟨hown, hopen⟩
          refine ⟨hlist, fun b => ?_, hopened.mpr hopen⟩
          rw [hfiles]
          exact hown b

def driverless : MountTable where
  files :=
    { busLinklist := [0], bus := fun _ => ⟨[115], [7], [], none, none⟩, devName := fun _ => [100]
      drvName := fun _ => [], privateData := fun _ => none, fdtable := fun _ => none
      log := [], devClaims := [], drvClaims := [], matched := [] }
  opened := fun _ => false
  mntList := []

theorem failed_mount_changes_owner :
    ∃ (calls : MountCalls) (args : MountArgs), (driverless.mountFilesystem calls args).2 = -enxio ∧
      (driverless.files.bus 0).ownerHaldev = none ∧
      ((driverless.mountFilesystem calls args).1.files.bus 0).ownerHaldev = some 7 := by
  refine ⟨⟨fun _ => none, fun _ => none, fun _ => none, true, true⟩,
    ⟨some ⟨[115], by decide⟩, some ⟨[100], by decide⟩, some ⟨[118], by decide⟩, 0,
      some ⟨[47], by decide⟩⟩, ?_⟩
  decide

end MountTable
end Xiuos.Fs
