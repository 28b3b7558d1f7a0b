import EkKor.Fs.Layout
import EkKor.Fs.Numerals

/-!
# Log files with rotation (`syslog_*` in `fs_server.c`)

A volume is the content of its files.  The calls of EKKFS succeed, except for those about a file that
is not there, and for a write past the blocks that a file can have: then there is no result.  There
is none either for a message whose arguments do not fit its format.

* `formatLoop`, `logLine`             the text of a message;
* `buildRotatedName`                  the names of the older logs;
* `Syslog`, `SyslogState`             the state, with the volume;
* `syslogInit`, `syslogRotate`, `syslogWrite`   the calls;
* `LogCall`, `SyslogState.run`        sequences of writes and rotations;
* `Rotates`                           what the files hold of the bytes that have been written;
* `Distinct`                          no two of the names are the same;
* `rotation_iff`                      only then is this so in all runs.
-/

namespace EkKor
namespace Fs
open List Function

/-! ## files -/

abbrev Files := List UInt8 → Option (List UInt8)

abbrev maxFileBytes : Nat := 512 * (directBlocks + indirectBlocks)

namespace Files

/-- `ekkfs_delete` -/
def delete (files : Files) (name : List UInt8) : Files := update files name none

/-- `ekkfs_create` of a new file, and writes to it -/
def put (files : Files) (name content : List UInt8) : Files :=
  update files name (some content)

end Files

/-- a file is read in pieces of 512 bytes, and each is written; at most `fuel` pieces -/
def copyLoop : Nat → List UInt8 → List UInt8
  | 0, _ => []
  | fuel + 1, content =>
    if content.take 512 = [] then []
    else content.take 512 ++ copyLoop fuel (content.drop 512)

def copied (content : List UInt8) : List UInt8 := copyLoop content.length content

/-! ## messages -/

/-- an argument of a message; a string may be missing -/
inductive LogArg where
  | int (value : Int32)
  | text (value : Option (List UInt8))

abbrev logBufferSize : Nat := 256
abbrev logLevelInfo : Nat := 1
abbrev logLevelError : Nat := 3

/-- `log_level_names`, all of them with five characters -/
def logLevelName (level : Nat) : List UInt8 :=
  if level ≤ logLevelError then
    [[0x44, 0x45, 0x42, 0x55, 0x47], [0x49, 0x4E, 0x46, 0x4F, 0x20],
      [0x57, 0x41, 0x52, 0x4E, 0x20], [0x45, 0x52, 0x52, 0x4F, 0x52]].getD level []
  else [0x3F, 0x3F, 0x3F, 0x3F, 0x3F]

/-- `"(null)"` -/
def nullText : List UInt8 := [0x28, 0x6E, 0x75, 0x6C, 0x6C, 0x29]

/-- the loop over the format; there is no line if an argument is missing or of the other type, or if
the format ends in `%` -/
def formatLoop (line : List UInt8) : List UInt8 → List LogArg → Option (List UInt8)
  | [], _ => some line
  | c :: format, args =>
    if line.length ≥ logBufferSize - 2 then some line
    else if c ≠ 0x25 then formatLoop (line ++ [c]) format args
    else
      match format with
      | [] => none
      | c :: format =>
        if c = 0x64 ∨ c = 0x69 then
          match args with
          | .int val :: args =>
            let tmp := simpleItoa val 16
            formatLoop (if line.length + tmp.length < logBufferSize - 1 then line ++ tmp else line)
              format args
          | _ => none
        else if c = 0x73 then
          match args with
          | .text str :: args =>
            formatLoop (line ++ (str.getD nullText).take (logBufferSize - 2 - line.length)) format
              args
          | _ => none
        else formatLoop (line ++ [c]) format args

def logLine (level : Nat) (format : List UInt8) (args : List LogArg) : Option (List UInt8) :=
  (formatLoop (0x5B :: logLevelName level ++ [0x5D, 0x20]) format args).map fun line =>
    line ++ [0x0A]

/-! ## rotation -/

/-- `build_rotated_name` into 16 bytes -/
def buildRotatedName (base : List UInt8) (rotation : Nat) : List UInt8 :=
  if rotation = 0 then base.take 15
  else base.take 12 ++ [0x2E, 0x30 + UInt8.ofNat (rotation % 10)]

def moveFile (files : Files) (source dest : List UInt8) : Files :=
  match files source with
  | none => files
  | some content => ((files.delete dest).put dest (copied content)).delete source

/-- the loop of `syslog_rotate` from `i` down to 1 -/
def shiftLoop (base : List UInt8) : Nat → Files → Files
  | 0, files => files
  | i + 1, files =>
    shiftLoop base i
      (moveFile files (buildRotatedName base (i + 1)) (buildRotatedName base (i + 2)))

/-- `g_syslog`; `position` is the one of its file -/
structure Syslog where
  filename : List UInt8
  maxSize : UInt32
  maxRotations : Nat
  minLevel : Nat
  initialized : Bool
  fileOpen : Bool
  position : Nat
  currentSize : UInt32

structure SyslogState where
  files : Files
  log : Syslog

/-- `"system.log"` -/
def logDefaultFile : List UInt8 := [0x73, 0x79, 0x73, 0x74, 0x65, 0x6D, 0x2E, 0x6C, 0x6F, 0x67]
abbrev logMaxSize : UInt32 := 4096
abbrev logMaxRotations : Nat := 3

/-- `syslog_init` -/
def syslogInit (files : Files) (filename : List UInt8) (maxSize : UInt32) (maxRotations : Int) :
    SyslogState :=
  let name := if filename.length > 0 then filename.take 15 else logDefaultFile
  let size := match files name with
    | none => 0
    | some content => content.length
  { files := match files name with
      | none => files.put name []
      | some _ => files
    log :=
      { filename := name
        maxSize := if maxSize > 0 then maxSize else logMaxSize
        maxRotations := if maxRotations > 0 then maxRotations.toNat else logMaxRotations
        minLevel := logLevelInfo
        initialized := true
        fileOpen := true
        position := size
        currentSize := UInt32.ofNat size } }

/-- `syslog_rotate` -/
def syslogRotate (s : SyslogState) : Int × SyslogState :=
  if !s.log.initialized then (-1, s)
  else
    let name := s.log.filename
    let files := s.files.delete (buildRotatedName name s.log.maxRotations)
    let files := shiftLoop name (s.log.maxRotations - 1) files
    let newname := buildRotatedName name 1
    let files := match files name with
      | none => files
      | some content =>
        if content.length > 0 then (files.delete newname).put newname (copied content) else files
    let files := (files.delete name).put name []
    (0, { files := files, log := { s.log with fileOpen := true, position := 0, currentSize := 0 } })

/-- `syslog_write` -/
def syslogWrite (s : SyslogState) (level : Nat) (format : List UInt8) (args : List LogArg) :
    Option (Int × SyslogState) :=
  if !s.log.initialized || !s.log.fileOpen then some (-1, s)
  else if level < s.log.minLevel then some (0, s)
  else
    let s := if s.log.currentSize ≥ s.log.maxSize then (syslogRotate s).2 else s
    (logLine level format args).bind fun line =>
      match s.files s.log.filename with
      | none => none
      | some content =>
        if s.log.position + line.length > maxFileBytes then none
        else
          some (line.length,
            { files := s.files.put s.log.filename
                (content.take s.log.position ++ line ++
                  content.drop (s.log.position + line.length))
              log :=
                { s.log with
                  position := s.log.position + line.length
                  currentSize := s.log.currentSize + UInt32.ofNat line.length } })

/-! ## runs -/

inductive LogCall where
  | write (level : Nat) (format : List UInt8) (args : List LogArg)
  | rotate

namespace SyslogState

def accepts (s : SyslogState) (level : Nat) : Bool :=
  s.log.initialized && s.log.fileOpen && decide (s.log.minLevel ≤ level)

/-- a call: the state after it, the bytes that it has written, and the number of rotations -/
def call (s : SyslogState) : LogCall → Option (SyslogState × List UInt8 × Nat)
  | .write level format args =>
    (syslogWrite s level format args).map fun (_, s') =>
      (s', if s.accepts level then (logLine level format args).getD [] else [],
        if s.accepts level && decide (s.log.currentSize ≥ s.log.maxSize) then 1 else 0)
  | .rotate => some ((syslogRotate s).2, [], if s.log.initialized then 1 else 0)

/-- the calls in order: the state after them, all bytes that have been written, and the number of
rotations -/
def run (s : SyslogState) : List LogCall → Option (SyslogState × List UInt8 × Nat)
  | [] => some (s, [], 0)
  | c :: calls =>
    (s.call c).bind fun (s, bytes, rotations) =>
      (s.run calls).map fun (s, bytes', rotations') =>
        (s, bytes ++ bytes', rotations + rotations')

def content (s : SyslogState) (name : List UInt8) : List UInt8 := (s.files name).getD []

/-- the older logs from number `k` on -/
def older (c : Nat → List UInt8) : Nat → List UInt8
  | 0 => []
  | k + 1 => c (k + 1) ++ older c k

def logs (s : SyslogState) : List UInt8 :=
  older (fun i => s.content (buildRotatedName s.log.filename i)) s.log.maxRotations ++
    s.content s.log.filename

end SyslogState

/-- the logs are the last bytes that have been written, and all of them unless there were more than
`max_rotations` rotations; the size is right; and the other files are as in `files` -/
structure Rotates (files : Files) (s : SyslogState) (bytes : List UInt8) (rotations : Nat) :
    Prop where
  suffix : s.logs <:+ bytes
  complete : rotations ≤ s.log.maxRotations → s.logs = bytes
  size : ∃ content, s.files s.log.filename = some content ∧
    s.log.currentSize.toNat = content.length
  others : ∀ name, name ≠ s.log.filename →
    (∀ i, 1 ≤ i → i ≤ s.log.maxRotations → name ≠ buildRotatedName s.log.filename i) →
    s.files name = files name

/-- one digit is enough for the older logs, and none of them has the name of the log -/
structure Distinct (filename : List UInt8) (maxRotations : Nat) : Prop where
  digits : maxRotations ≤ 10
  name : ∀ i, 1 ≤ i → i ≤ maxRotations → buildRotatedName filename i ≠ filename

/-! ## copies -/

theorem copyLoop_eq {fuel : Nat} {content : List UInt8} (h : content.length ≤ fuel) :
    copyLoop fuel content = content := by
  induction fuel generalizing content with
  | zero => exact (length_eq_zero_iff.mp (Nat.le_zero.mp h)).symm
  | succ fuel ih =>
    rw [copyLoop]
    split_ifs with hend
    · rcases take_eq_nil_iff.mp hend with hzero | hnil
      · exact absurd hzero (by decide)
      · exact hnil.symm
    · rw [ih, take_append_drop]
      rw [length_drop]
      omega

theorem copied_eq (content : List UInt8) : copied content = content :=
  copyLoop_eq (Nat.le_refl _)

variable {files : Files} {name base : List UInt8}

variable {source dest bytes' : List UInt8} {k rotations' : Nat} {c c' : Nat → List UInt8}

theorem moveFile_dest (hne : source ≠ dest) (hnone : files dest = none) :
    moveFile files source dest dest = files source := by
  unfold moveFile
  cases hsource : files source with
  | none => exact hnone
  | some content =>
    dsimp only
    unfold Files.delete Files.put
    rw [update_of_ne hne.symm, update_self, copied_eq]

theorem moveFile_source (files : Files) (source dest : List UInt8) :
    moveFile files source dest source = none := by
  unfold moveFile
  cases hsource : files source with
  | none => exact hsource
  | some content => exact update_self ..

theorem moveFile_other (hsource : name ≠ source) (hdest : name ≠ dest) :
    moveFile files source dest name = files name := by
  unfold moveFile
  cases files source with
  | none => rfl
  | some content =>
    dsimp only
    unfold Files.delete Files.put
    rw [update_of_ne hsource, update_of_ne hdest, update_of_ne hdest]

/-- the names of the first `k` older logs are different -/
def Injects (base : List UInt8) (k : Nat) : Prop :=
  ∀ i j, 1 ≤ i → i ≤ k → 1 ≤ j → j ≤ k →
    buildRotatedName base i = buildRotatedName base j → i = j

/-- **Shift.** Each of the first `k` logs takes the next number. -/
structure Shifted (base : List UInt8) (k : Nat) (files files' : Files) : Prop where
  first : files' (buildRotatedName base 1) = none
  next : ∀ i, 1 ≤ i → i ≤ k →
    files' (buildRotatedName base (i + 1)) = files (buildRotatedName base i)
  other : ∀ name, (∀ i, 1 ≤ i → i ≤ k + 1 → name ≠ buildRotatedName base i) →
    files' name = files name

theorem shiftLoop_shifted (hinj : Injects base (k + 1))
    (hnone : files (buildRotatedName base (k + 1)) = none) :
    Shifted base k files (shiftLoop base k files) := by
  induction k generalizing files with
  | zero => exact ⟨hnone, fun i hi hi' => absurd hi (by omega), fun _ _ => rfl⟩
  | succ k ih =>
    have hne {i j : Nat} (hi : 1 ≤ i) (hi' : i ≤ k + 2) (hj : 1 ≤ j) (hj' : j ≤ k + 2)
        (hij : i ≠ j) : buildRotatedName base i ≠ buildRotatedName base j :=
      fun heq => hij (hinj i j hi hi' hj hj' heq)
    have hmoved := ih (fun i j hi hi' hj hj' heq => hinj i j hi (by omega) hj (by omega) heq)
      (moveFile_source files (buildRotatedName base (k + 1)) (buildRotatedName base (k + 2)))
    rw [shiftLoop]
    refine ⟨hmoved.first, fun i hi hi' => ?_, fun name hname => ?_⟩
    · rcases Nat.lt_or_eq_of_le hi' with hlt | rfl
      · rw [hmoved.next i hi (by omega)]
        exact moveFile_other (hne hi (by omega) (by omega) (by omega) (by omega))
          (hne hi (by omega) (by omega) (by omega) (by omega))
      · rw [hmoved.other _ fun j hj hj' =>
          hne (by omega) (by omega) hj (by omega) (by omega)]
        exact moveFile_dest (hne (by omega) (by omega) (by omega) (by omega) (by omega)) hnone
    · rw [hmoved.other name fun i hi hi' => hname i hi (by omega)]
      exact moveFile_other (hname _ (by omega) (by omega)) (hname _ (by omega) (by omega))

theorem injects_of_le (hk : k ≤ 10) (base : List UInt8) : Injects base k := by
  intro i j hi hi' hj hj' heq
  unfold buildRotatedName at heq
  rw [if_neg (by omega), if_neg (by omega), append_cancel_left_eq] at heq
  have hdigit : (0x30 : UInt8) + UInt8.ofNat (i % 10) = 0x30 + UInt8.ofNat (j % 10) :=
    (List.cons.inj (List.cons.inj heq).2).1
  have hofNat := (UInt8.add_right_inj 0x30).mp hdigit
  have hsame : i % 10 = j % 10 := by
    have htoNat := congrArg UInt8.toNat hofNat
    rwa [UInt8.toNat_ofNat_of_lt' (by show i % 10 < 256; omega),
      UInt8.toNat_ofNat_of_lt' (by show j % 10 < 256; omega)] at htoNat
  omega

/-! ## one call -/

variable {s s' : SyslogState} {bytes : List UInt8} {rotations : Nat}

/-- each log has the next number now, and the current one is empty -/
structure Rotated (s s' : SyslogState) : Prop where
  log : s'.log = { s.log with fileOpen := true, position := 0, currentSize := 0 }
  current : s'.files s.log.filename = some []
  first : s'.content (buildRotatedName s.log.filename 1) = s.content s.log.filename
  next : ∀ i, 1 ≤ i → i + 1 ≤ s.log.maxRotations →
    s'.content (buildRotatedName s.log.filename (i + 1)) =
      s.content (buildRotatedName s.log.filename i)
  others : ∀ name, name ≠ s.log.filename →
    (∀ i, 1 ≤ i → i ≤ s.log.maxRotations → name ≠ buildRotatedName s.log.filename i) →
    s'.files name = s.files name

theorem syslogRotate_rotated (hinit : s.log.initialized = true) (hpos : 1 ≤ s.log.maxRotations)
    (hd : Distinct s.log.filename s.log.maxRotations) {current : List UInt8}
    (hcurrent : s.files s.log.filename = some current) : Rotated s (syslogRotate s).2 := by
  obtain ⟨k, hk⟩ : ∃ k, s.log.maxRotations = k + 1 := ⟨s.log.maxRotations - 1, by omega⟩
  have hinj := injects_of_le hd.digits s.log.filename
  have hname := hd.name
  rw [hk] at hinj hname
  have hshift := shiftLoop_shifted hinj (show s.files.delete
    (buildRotatedName s.log.filename (k + 1)) (buildRotatedName s.log.filename (k + 1)) = none from
      update_self ..)
  have hdeleted (name : List UInt8) (hne : name ≠ buildRotatedName s.log.filename (k + 1)) :
      s.files.delete (buildRotatedName s.log.filename (k + 1)) name = s.files name :=
    update_of_ne hne ..
  have hkept : shiftLoop s.log.filename k
      (s.files.delete (buildRotatedName s.log.filename (k + 1))) s.log.filename = some current := by
    rw [hshift.other _ fun i hi hi' => (hname i hi hi').symm,
      hdeleted _ (hname _ (by omega) (by omega)).symm, hcurrent]
  unfold syslogRotate
  rw [if_neg (by rw [hinit]; decide), hk]
  dsimp only
  rw [Nat.add_sub_cancel, hkept]
  generalize hfiles : shiftLoop s.log.filename k
    (s.files.delete (buildRotatedName s.log.filename (k + 1))) = shifted at hshift hkept ⊢
  -- the current log as number 1
  have hput (name : List UInt8) (hne : name ≠ buildRotatedName s.log.filename 1) :
      (if current.length > 0 then (shifted.delete (buildRotatedName s.log.filename 1)).put
        (buildRotatedName s.log.filename 1) (copied current) else shifted) name = shifted name := by
    split_ifs
    · unfold Files.put Files.delete
      rw [update_of_ne hne, update_of_ne hne]
    · rfl
  have hother (name : List UInt8) (hne : name ≠ s.log.filename) :
      (((if current.length > 0 then (shifted.delete (buildRotatedName s.log.filename 1)).put
        (buildRotatedName s.log.filename 1) (copied current) else shifted).delete
          s.log.filename).put s.log.filename []) name =
        (if current.length > 0 then (shifted.delete (buildRotatedName s.log.filename 1)).put
          (buildRotatedName s.log.filename 1) (copied current) else shifted) name := by
    unfold Files.put Files.delete
    rw [update_of_ne hne, update_of_ne hne]
  refine ⟨rfl, update_self .., ?_, fun i hi hi' => ?_, fun name hne hnumbers => ?_⟩
  · unfold SyslogState.content
    dsimp only
    rw [hother _ (hname 1 (by omega) (by omega)), hcurrent]
    split_ifs with hlength
    · unfold Files.put
      rw [update_self, copied_eq]
    · rw [hshift.first]
      exact (length_eq_zero_iff.mp (Nat.eq_zero_of_not_pos hlength)).symm
  · have hi'' : i ≤ k := by omega
    unfold SyslogState.content
    dsimp only
    rw [hother _ (hname (i + 1) (by omega) (by omega)),
      hput _ fun heq => absurd (hinj _ _ (by omega) (by omega) (by omega) (by omega) heq) (by omega),
      hshift.next i hi hi'', hdeleted _ fun heq =>
        absurd (hinj _ _ hi (by omega) (by omega) (by omega) heq) (by omega)]
  · rw [hk] at hnumbers
    show (((if current.length > 0 then (shifted.delete (buildRotatedName s.log.filename 1)).put
      (buildRotatedName s.log.filename 1) (copied current) else shifted).delete
        s.log.filename).put s.log.filename []) name = _
    rw [hother _ hne, hput _ (hnumbers 1 (by omega) (by omega)), hshift.other _ hnumbers,
      hdeleted _ (hnumbers _ (by omega) (by omega))]

theorem older_shift (h : ∀ i, 1 ≤ i → i ≤ k → c' (i + 1) = c i) :
    SyslogState.older c' (k + 1) = SyslogState.older c k ++ c' 1 := by
  induction k with
  | zero => exact append_nil _
  | succ k ih =>
    rw [SyslogState.older, h (k + 1) (by omega) (by omega),
      ih fun i hi hi' => h i hi (Nat.le_succ_of_le hi'), SyslogState.older, append_assoc]

theorem older_congr (h : ∀ i, 1 ≤ i → i ≤ k → c' i = c i) :
    SyslogState.older c' k = SyslogState.older c k := by
  induction k with
  | zero => rfl
  | succ k ih =>
    rw [SyslogState.older, SyslogState.older, h (k + 1) (by omega) (Nat.le_refl _),
      ih fun i hi hi' => h i hi (Nat.le_succ_of_le hi')]

theorem Rotated.logs (hr : Rotated s s') (hpos : 1 ≤ s.log.maxRotations) :
    s.content (buildRotatedName s.log.filename s.log.maxRotations) ++ s'.logs = s.logs := by
  obtain ⟨k, hk⟩ : ∃ k, s.log.maxRotations = k + 1 := ⟨s.log.maxRotations - 1, by omega⟩
  have hcurrent : s'.content s.log.filename = [] := by
    unfold SyslogState.content
    rw [hr.current]
    rfl
  unfold SyslogState.logs
  rw [hr.log]
  rw [hcurrent, append_nil, hk]
  have hshift : SyslogState.older (fun i => s'.content (buildRotatedName s.log.filename i)) (k + 1) =
      SyslogState.older (fun i => s.content (buildRotatedName s.log.filename i)) k ++
        s'.content (buildRotatedName s.log.filename 1) :=
    older_shift fun i hi hi' => hr.next i hi (by omega)
  rw [hshift, hr.first, SyslogState.older, append_assoc]

/-- what is known in a run: the log is open at its end, and numbers that have not been reached are
empty -/
structure Tracks (files : Files) (name : List UInt8) (maxRotations : Nat) (s : SyslogState)
    (bytes : List UInt8) (rotations : Nat) : Prop where
  filename : s.log.filename = name
  max : s.log.maxRotations = maxRotations
  initialized : s.log.initialized = true
  fileOpen : s.log.fileOpen = true
  file : ∃ content, s.files name = some content ∧ s.log.position = content.length ∧
    content.length ≤ maxFileBytes ∧ s.log.currentSize.toNat = content.length
  suffix : s.logs <:+ bytes
  complete : rotations ≤ maxRotations → s.logs = bytes
  fresh : ∀ i, rotations < i → i ≤ maxRotations → s.content (buildRotatedName name i) = []
  others : ∀ other, other ≠ name →
    (∀ i, 1 ≤ i → i ≤ maxRotations → other ≠ buildRotatedName name i) → s.files other = files other

variable {maxRotations : Nat}

theorem Tracks.rotates (h : Tracks files name maxRotations s bytes rotations) :
    Rotates files s bytes rotations := by
  obtain ⟨content, hcontent, _, _, hsize⟩ := h.file
  have hname := h.filename
  have hmax := h.max
  subst hname hmax
  exact ⟨h.suffix, h.complete, ⟨content, hcontent, hsize⟩, h.others⟩

/-- **Rotation.** -/
theorem Tracks.rotate (h : Tracks files name maxRotations s bytes rotations)
    (hpos : 1 ≤ maxRotations) (hd : Distinct name maxRotations) :
    Tracks files name maxRotations (syslogRotate s).2 bytes (rotations + 1) := by
  obtain ⟨content, hcontent, _⟩ := h.file
  have hname := h.filename
  have hmax := h.max
  subst hname hmax
  have hr := syslogRotate_rotated h.initialized hpos hd hcontent
  have hlogs := hr.logs hpos
  have hlog := hr.log
  have hsuffix : (syslogRotate s).2.logs <:+ bytes :=
    (suffix_append _ _).trans (hlogs.symm ▸ h.suffix)
  refine ⟨by rw [hlog], by rw [hlog], by rw [hlog]; exact h.initialized, by rw [hlog],
    ⟨[], hr.current, by rw [hlog]; rfl, Nat.zero_le _, by rw [hlog]; rfl⟩, hsuffix, fun hle => ?_,
    fun i hi hi' => ?_, fun other hother hnumbers => ?_⟩
  · have hlast := h.fresh s.log.maxRotations (by omega) (Nat.le_refl _)
    rw [hlast, nil_append] at hlogs
    exact hlogs.trans (h.complete (by omega))
  · obtain ⟨j, rfl⟩ : ∃ j, i = j + 1 := ⟨i - 1, by omega⟩
    rw [hr.next j (by omega) hi']
    exact h.fresh j (by omega) (by omega)
  · exact (hr.others other hother hnumbers).trans (h.others other hother hnumbers)

/-- **Write** without a rotation: the bytes are added to the log. -/
theorem Tracks.append (h : Tracks files name maxRotations s bytes rotations)
    (hd : Distinct name maxRotations) {line : List UInt8}
    (hfits : s.log.position + line.length ≤ maxFileBytes) :
    ∃ content, s.files name = some content ∧
      Tracks files name maxRotations
        { files := s.files.put name
            (content.take s.log.position ++ line ++ content.drop (s.log.position + line.length))
          log :=
            { s.log with
              position := s.log.position + line.length
              currentSize := s.log.currentSize + UInt32.ofNat line.length } }
        (bytes ++ line) rotations := by
  obtain ⟨content, hcontent, hposition, hlength, hsize⟩ := h.file
  have hname := h.filename
  have hmax := h.max
  subst hname hmax
  refine ⟨content, hcontent, ?_⟩
  rw [hposition] at hfits ⊢
  rw [take_length, drop_eq_nil_of_le (Nat.le_add_right _ _), append_nil]
  have hother (other : List UInt8) (hne : other ≠ s.log.filename) :
      s.files.put s.log.filename (content ++ line) other = s.files other :=
    update_of_ne hne ..
  have hlogs : SyslogState.logs
      { files := s.files.put s.log.filename (content ++ line)
        log :=
          { s.log with
            position := content.length + line.length
            currentSize := s.log.currentSize + UInt32.ofNat line.length } } = s.logs ++ line := by
    unfold SyslogState.logs SyslogState.content
    dsimp only
    rw [hcontent]
    have holder := older_congr (k := s.log.maxRotations)
      (c := fun i => (s.files (buildRotatedName s.log.filename i)).getD [])
      (fun i hi hi' => congrArg (fun file : Option (List UInt8) => file.getD [])
        (hother _ (hd.name i hi hi')))
    rw [holder]
    unfold Files.put
    rw [update_self, append_assoc]
    rfl
  refine ⟨rfl, rfl, h.initialized, h.fileOpen, ⟨content ++ line, update_self .., ?_, ?_, ?_⟩,
    ?_, fun hle => ?_, fun i hi hi' => ?_, fun other hne hnumbers => ?_⟩
  · rw [length_append]
  · rw [length_append]
    exact hfits
  · have hsmall : maxFileBytes < 2 ^ 32 := by decide
    have hline : (UInt32.ofNat line.length).toNat = line.length :=
      Nat.mod_eq_of_lt (by omega)
    rw [UInt32.toNat_add, hsize, hline, length_append]
    exact Nat.mod_eq_of_lt (by omega)
  · rw [hlogs]
    obtain ⟨before, hbefore⟩ := h.suffix
    exact ⟨before, by rw [← append_assoc, hbefore]⟩
  · rw [hlogs, h.complete hle]
  · unfold SyslogState.content
    dsimp only
    rw [hother _ (hd.name i (by omega) hi')]
    exact h.fresh i hi hi'
  · show s.files.put s.log.filename (content ++ line) other = _
    rw [hother _ hne]
    exact h.others other hne hnumbers

/-- **One call.** -/
theorem Tracks.call (h : Tracks files name maxRotations s bytes rotations) (hpos : 1 ≤ maxRotations)
    (hd : Distinct name maxRotations) {c : LogCall} {s' : SyslogState}
    (hcall : s.call c = some (s', bytes', rotations')) :
    Tracks files name maxRotations s' (bytes ++ bytes') (rotations + rotations') := by
  cases c with
  | rotate =>
    have hinit := h.initialized
    unfold SyslogState.call at hcall
    rw [if_pos hinit] at hcall
    cases hcall
    rw [append_nil]
    exact h.rotate hpos hd
  | write level format args =>
    unfold SyslogState.call syslogWrite at hcall
    dsimp only at hcall
    have hopen : ¬ ((!s.log.initialized || !s.log.fileOpen) = true) := by
      rw [h.initialized, h.fileOpen]
      decide
    rw [if_neg hopen] at hcall
    by_cases hfilter : level < s.log.minLevel
    · have haccepts : s.accepts level = false := by
        unfold SyslogState.accepts
        rw [decide_eq_false (Nat.not_le.mpr hfilter), Bool.and_false]
      rw [if_pos hfilter, haccepts] at hcall
      cases hcall
      rw [if_neg Bool.false_ne_true, Bool.false_and, if_neg Bool.false_ne_true, append_nil]
      exact h
    · have haccepts : s.accepts level = true := by
        unfold SyslogState.accepts
        rw [h.initialized, h.fileOpen, decide_eq_true (Nat.not_lt.mp hfilter)]
        rfl
      rw [if_neg hfilter, haccepts, if_pos rfl, Bool.true_and] at hcall
      have hmore : Tracks files name maxRotations
          (if s.log.currentSize ≥ s.log.maxSize then (syslogRotate s).2 else s) bytes
          (rotations +
            if decide (s.log.currentSize ≥ s.log.maxSize) = true then 1 else 0) := by
        by_cases hfull : s.log.currentSize ≥ s.log.maxSize
        · rw [if_pos hfull, if_pos (decide_eq_true hfull)]
          exact h.rotate hpos hd
        · rw [if_neg hfull, if_neg (by rw [decide_eq_false hfull]; decide)]
          exact h
      generalize (if s.log.currentSize ≥ s.log.maxSize then (syslogRotate s).2 else s) = s₁
        at hcall hmore
      obtain ⟨⟨result, s₂⟩, hwrite, heq⟩ := Option.map_eq_some_iff.mp hcall
      obtain ⟨line, hline, hwrite⟩ := Option.bind_eq_some_iff.mp hwrite
      rw [hline] at heq
      cases heq
      by_cases hfits : s₁.log.position + line.length > maxFileBytes
      · obtain ⟨content, hcontent, _⟩ := hmore.file
        rw [hmore.filename, hcontent] at hwrite
        dsimp only at hwrite
        rw [if_pos hfits] at hwrite
        cases hwrite
      · obtain ⟨content, hcontent, htracks⟩ := hmore.append hd (Nat.not_lt.mp hfits)
        rw [hmore.filename, hcontent] at hwrite
        dsimp only at hwrite
        rw [if_neg hfits] at hwrite
        cases hwrite
        rw [← hmore.filename] at htracks ⊢
        exact htracks

/-! ## runs -/

theorem Tracks.run (h : Tracks files name maxRotations s bytes rotations) (hpos : 1 ≤ maxRotations)
    (hd : Distinct name maxRotations) {calls : List LogCall} {s' : SyslogState}
    (hrun : s.run calls = some (s', bytes', rotations')) :
    Tracks files name maxRotations s' (bytes ++ bytes') (rotations + rotations') := by
  induction calls generalizing s bytes rotations s' bytes' rotations' with
  | nil =>
    cases hrun
    rw [append_nil]
    exact h
  | cons c calls ih =>
    obtain ⟨⟨s₁, bytes₁, rotations₁⟩, hcall, hrest⟩ := Option.bind_eq_some_iff.mp hrun
    obtain ⟨⟨s₂, bytes₂, rotations₂⟩, hrun₂, heq⟩ := Option.map_eq_some_iff.mp hrest
    cases heq
    rw [← append_assoc, ← Nat.add_assoc]
    exact ih (h.call hpos hd hcall) hrun₂

theorem tracks_init (hname : name ≠ []) (hshort : name.length ≤ 15) (hpos : 1 ≤ maxRotations)
    (hnew : files name = none) (hnumbers : ∀ i, 1 ≤ i → i ≤ maxRotations →
      files (buildRotatedName name i) = none) (maxSize : UInt32) :
    Tracks files name maxRotations (syslogInit files name maxSize maxRotations) [] 0 := by
  have hfilename : (if name.length > 0 then name.take 15 else logDefaultFile) = name := by
    rw [if_pos (length_pos_iff.mpr hname), take_of_length_le hshort]
  have hrotations : (if (maxRotations : Int) > 0 then (maxRotations : Int).toNat
      else logMaxRotations) = maxRotations := by
    rw [if_pos (by omega)]
    rfl
  unfold syslogInit
  rw [hfilename, hrotations]
  dsimp only
  rw [hnew]
  have hcontent (other : List UInt8) (hother : files other = none) :
      (files.put name [] other).getD [] = [] := by
    unfold Files.put
    by_cases heq : other = name
    · rw [heq, update_self]
      rfl
    · rw [update_of_ne heq, hother]
      rfl
  have holder : SyslogState.older
      (fun i => (files.put name [] (buildRotatedName name i)).getD []) maxRotations = [] := by
    have hempty (k : Nat) : SyslogState.older (fun _ => []) k = [] := by
      induction k with
      | zero => rfl
      | succ k ih => exact ih
    rw [older_congr fun i hi hi' => hcontent _ (hnumbers i hi hi'), hempty]
  have hlogs {s : SyslogState} (hfiles : s.files = files.put name [])
      (hlogName : s.log.filename = name) (hlogMax : s.log.maxRotations = maxRotations) :
      s.logs = [] := by
    unfold SyslogState.logs SyslogState.content
    rw [hlogName, hlogMax, hfiles, holder, hcontent name hnew]
    rfl
  exact ⟨rfl, rfl, rfl, rfl, ⟨[], update_self .., rfl, Nat.zero_le _, rfl⟩,
    suffix_nil.mpr (hlogs rfl rfl rfl), fun _ => hlogs rfl rfl rfl,
    fun i hi hi' => hcontent _ (hnumbers i hi hi'),
    fun other hother _ => update_of_ne hother ..⟩

/-! ## names that are the same -/

theorem length_older_le (c : Nat → List UInt8) {i : Nat} (hi : 1 ≤ i) (hi' : i ≤ k) :
    (c i).length ≤ (SyslogState.older c k).length := by
  induction k with
  | zero => omega
  | succ k ih =>
    rw [SyslogState.older, length_append]
    rcases Nat.lt_or_eq_of_le hi' with hlt | rfl
    · exact Nat.le_trans (ih (Nat.le_of_lt_succ hlt)) (Nat.le_add_left _ _)
    · exact Nat.le_add_right _ _

theorem length_older_add_le (c : Nat → List UInt8) {i j : Nat} (hi : 1 ≤ i) (hij : i < j)
    (hj : j ≤ k) : (c i).length + (c j).length ≤ (SyslogState.older c k).length := by
  induction k with
  | zero => omega
  | succ k ih =>
    rw [SyslogState.older, length_append]
    rcases Nat.lt_or_eq_of_le hj with hlt | rfl
    · exact Nat.le_trans (ih (Nat.le_of_lt_succ hlt)) (Nat.le_add_left _ _)
    · rw [Nat.add_comm]
      exact Nat.add_le_add_left (length_older_le c hi (Nat.le_of_lt_succ hij)) _

theorem shiftLoop_none (h : ∀ i, 1 ≤ i → i ≤ k → files (buildRotatedName base i) = none) :
    shiftLoop base k files = files := by
  induction k with
  | zero => rfl
  | succ k ih =>
    have hmove : moveFile files (buildRotatedName base (k + 1)) (buildRotatedName base (k + 2)) =
        files := by
      unfold moveFile
      rw [h (k + 1) (by omega) (Nat.le_refl _)]
    rw [shiftLoop, hmove]
    exact ih fun i hi hi' => h i hi (Nat.le_succ_of_le hi')

def emptyLine : List UInt8 := 0x5B :: logLevelName logLevelInfo ++ [0x5D, 0x20, 0x0A]

theorem write_first (hname : name ≠ []) (hshort : name.length ≤ 15) (hpos : 1 ≤ maxRotations)
    (hnew : files name = none) (maxSize : UInt32) : ∃ s',
    (syslogInit files name maxSize maxRotations).call (.write logLevelInfo [] []) =
        some (s', emptyLine, 0) ∧
      s'.log.filename = name ∧ s'.log.maxRotations = maxRotations ∧ s'.log.initialized = true ∧
      s'.files = (files.put name []).put name emptyLine := by
  have hline : logLine logLevelInfo [] [] = some emptyLine := rfl
  have hfilename : (if name.length > 0 then name.take 15 else logDefaultFile) = name := by
    rw [if_pos (length_pos_iff.mpr hname), take_of_length_le hshort]
  have hrotations : (if (maxRotations : Int) > 0 then (maxRotations : Int).toNat
      else logMaxRotations) = maxRotations := by
    rw [if_pos (by omega)]
    rfl
  have hsize : ¬ UInt32.ofNat 0 ≥ (if maxSize > 0 then maxSize else logMaxSize) := by
    split_ifs with hzero
    · exact UInt32.not_le.mpr hzero
    · decide
  unfold syslogInit
  rw [hfilename, hrotations]
  dsimp only
  rw [hnew]
  unfold SyslogState.call syslogWrite SyslogState.accepts
  dsimp only
  rw [if_neg (by decide : ¬ (!true || !true) = true), if_neg (Nat.lt_irrefl _), if_neg hsize, hline,
    Option.bind_some]
  dsimp only
  unfold Files.put
  rw [update_self]
  dsimp only
  rw [if_neg (by decide : ¬ 0 + emptyLine.length > maxFileBytes), decide_eq_false hsize]
  exact ⟨_, rfl, rfl, rfl, rfl, rfl⟩

theorem syslogRotate_log (hinit : s.log.initialized = true) : (syslogRotate s).2.log =
    { s.log with fileOpen := true, position := 0, currentSize := 0 } := by
  unfold syslogRotate
  rw [if_neg (by rw [hinit]; decide)]

theorem rotate_first (hfilename : s.log.filename = name) (hmax : s.log.maxRotations = maxRotations)
    (hinit : s.log.initialized = true) (hcurrent : s.content name = emptyLine) (hpos : 1 ≤ maxRotations)
    (hnames : ∀ i, 1 ≤ i → i ≤ maxRotations → buildRotatedName name i ≠ name)
    (hempty : ∀ i, 1 ≤ i → i ≤ maxRotations → s.files (buildRotatedName name i) = none) :
    (syslogRotate s).2.content (buildRotatedName name 1) = emptyLine := by
  have hname : s.files name = some emptyLine := by
    unfold SyslogState.content at hcurrent
    cases hfile : s.files name with
    | none =>
      rw [hfile] at hcurrent
      cases hcurrent
    | some content =>
      rw [hfile] at hcurrent
      exact congrArg some hcurrent
  have hdelete : s.files.delete (buildRotatedName name maxRotations) = s.files := by
    unfold Files.delete
    rw [← hempty maxRotations hpos (Nat.le_refl _), update_eq_self]
  have hshift : shiftLoop name (maxRotations - 1) s.files = s.files :=
    shiftLoop_none fun i hi hi' => hempty i hi (by omega)
  unfold SyslogState.content syslogRotate
  rw [if_neg (by rw [hinit]; decide), hfilename, hmax]
  dsimp only
  rw [hdelete, hshift, hname]
  dsimp only
  rw [if_pos (by decide), copied_eq]
  unfold Files.put Files.delete
  rw [update_of_ne (hnames 1 (Nat.le_refl _) hpos),
    update_of_ne (hnames 1 (Nat.le_refl _) hpos), update_self]
  rfl

/-- **Main.** A log is opened on a volume without log files.  In all runs of writes and rotations its
files hold what they should exactly when their names are different. -/
theorem rotation_iff (hname : name ≠ []) (hshort : name.length ≤ 15) (hpos : 1 ≤ maxRotations)
    (hnew : files name = none) (hnumbers : ∀ i, 1 ≤ i → i ≤ maxRotations →
      files (buildRotatedName name i) = none) (maxSize : UInt32) :
    (∀ calls s bytes rotations,
      (syslogInit files name maxSize maxRotations).run calls = some (s, bytes, rotations) →
        Rotates files s bytes rotations) ↔ Distinct name maxRotations := by
  constructor
  · intro hall
    obtain ⟨s, hcall, hfilename, hmax, hinit, hfiles⟩ :=
      write_first hname hshort hpos hnew maxSize
    have hcurrent : s.content name = emptyLine := by
      unfold SyslogState.content
      rw [hfiles]
      unfold Files.put
      rw [update_self]
      rfl
    -- one message is written, so the logs cannot have two
    have hone (s' : SyslogState) (calls : List LogCall) (r : Nat)
        (hrun : (syslogInit files name maxSize maxRotations).run calls = some (s', emptyLine, r)) :
        s'.logs.length ≤ emptyLine.length := (hall calls s' emptyLine r hrun).suffix.length_le
    have hnames : ∀ i, 1 ≤ i → i ≤ maxRotations → buildRotatedName name i ≠ name := by
      intro i hi hi' heq
      have hlogs := hone s [.write logLevelInfo [] []] 0 (by
        unfold SyslogState.run
        rw [hcall]
        rfl)
      unfold SyslogState.logs at hlogs
      have holder := length_older_le (fun i => s.content (buildRotatedName name i)) hi hi'
      rw [heq, hcurrent] at holder
      rw [hfilename, hmax, length_append, hcurrent] at hlogs
      have hlength : 0 < emptyLine.length := by decide
      omega
    refine ⟨?_, hnames⟩
    by_contra hlong
    have hempty (i : Nat) (hi : 1 ≤ i) (hi' : i ≤ maxRotations) :
        s.files (buildRotatedName name i) = none := by
      rw [hfiles]
      unfold Files.put
      rw [update_of_ne (hnames i hi hi'), update_of_ne (hnames i hi hi')]
      exact hnumbers i hi hi'
    have hsecond := rotate_first hfilename hmax hinit hcurrent hpos hnames hempty
    have hlogs := hone (syslogRotate s).2 [.write logLevelInfo [] [], .rotate] 1 (by
      unfold SyslogState.run
      rw [hcall, Option.bind_some]
      unfold SyslogState.run SyslogState.call
      dsimp only
      rw [if_pos hinit]
      rfl)
    -- with one digit, number 11 is number 1
    have heleven : buildRotatedName name 11 = buildRotatedName name 1 := rfl
    have holder := length_older_add_le (i := 1) (j := 11) (k := maxRotations)
      (fun i => (syslogRotate s).2.content (buildRotatedName name i)) (by decide) (by decide)
      (by omega)
    have hlength : 0 < emptyLine.length := by decide
    rw [heleven, hsecond] at holder
    unfold SyslogState.logs at hlogs
    rw [syslogRotate_log hinit, length_append] at hlogs
    rw [hfilename, hmax] at hlogs
    omega
  · intro hd calls s bytes rotations hrun
    have htracks := tracks_init hname hshort hpos hnew hnumbers maxSize
    have h := htracks.run hpos hd hrun
    rw [nil_append, Nat.zero_add] at h
    exact h.rotates

theorem rotation_small :
    (∀ calls s bytes rotations,
      (syslogInit (fun _ => none) [0x61] 64 ((3 : Nat) : Int)).run calls =
        some (s, bytes, rotations) → Rotates (fun _ => none) s bytes rotations) ↔
      Distinct [0x61] 3 :=
  rotation_iff (by decide) (by decide) (by decide) rfl (fun _ _ _ => rfl) 64

def ownRotatedName : List UInt8 := List.replicate 12 0x61 ++ [0x2E, 0x31]

theorem first_log_lost : ∃ s,
    (syslogInit (fun _ => none) ownRotatedName 64 1).run [.write logLevelInfo [] [], .rotate] =
        some (s, emptyLine, 1) ∧
      s.logs = [] ∧ ¬ Rotates (fun _ => none) s emptyLine 1 := by
  refine ⟨_, rfl, rfl, fun h => ?_⟩
  have hlost := h.complete (by decide)
  cases hlost

end Fs
end EkKor
