import EkKor.Lib.Packed
import EkKor.Lib.Runs
import EkKor.Module.Field

/-!
# The field of one module, one access at a time (`ekk_field.c`)

The publisher of a module, the garbage collector and any number of readers share the record of the
module.  An event is the next memory access of one of them: a member of the record is stored at
once, and a reader copies the record byte by byte.

* `Writer`, `Collector`, `Reader`   where a thread is in `publish`, `gc` and `sample`;
* `seqlock`        the machine of all threads;
* `publish_alone`, `sample_alone`   a thread that runs alone does what the function does.
-/

namespace EkKor
namespace Seqlock
open EkKor.Field (CoordField maxAge)
open Function
open List hiding Vector
open Runs (Machine EveryStep)

/-! ## the record -/

open Packed in
/-- `ekk_fixed_t` in memory -/
def fixed : Packed Int32 := u32.map UInt32.toInt32 Int32.toUInt32 Int32.toInt32_toUInt32

open Packed in
/-- `ekk_field_t` in memory, without the padding at its end -/
def layout : Packed Field :=
  ((array fixed 6).pair (u64.pair (u8.pair u8))).map
    (fun (components, timestamp, source, sequence) => ⟨components, timestamp, source, sequence⟩)
    (fun f => (f.components, f.timestamp, f.source, f.sequence))
    (fun _ => rfl)

/-- `EKK_FIELD_COUNT` values, a time, and two bytes -/
theorem layout_size : layout.size = 34 := rfl

/-- the members of a record -/
inductive Member where
  | component (i : Fin 6)
  | timestamp
  | source
  deriving DecidableEq

/-- the members in the order in which `ekk_field_publish` stores them -/
def members : List Member :=
  [.component 0, .component 1, .component 2, .component 3, .component 4, .component 5, .timestamp,
    .source]

/-- what `ekk_field_publish` of a module stores in a member -/
def store (moduleId : ModuleId) (components : Vector Int32 6) (now : TimeUs) (field : Field) :
    Member → Field
  | .component i => { field with components := field.components.set i (components.get i) }
  | .timestamp => { field with timestamp := now }
  | .source => { field with source := moduleId }

/-! ## the threads -/

/-- what the threads do that others see -/
inductive Out (n : Nat) where
  | published (components : Vector Int32 6) (now : TimeUs)
  | cleared
  | busy (r : Fin n)
  | notFound (r : Fin n)
  | expired (r : Fin n)
  /-- `EKK_OK`: the copy before the decay, and the age that it decays by -/
  | sampled (r : Fin n) (copy : Field) (age : TimeUs)
  deriving DecidableEq

/-- where the publisher is -/
inductive Writer where
  | idle
  /-- the sequence number is loaded, to be made odd -/
  | opening (components : Vector Int32 6) (now : TimeUs) (sequence : UInt32)
  /-- the sequence number is odd, and these members are still to be stored -/
  | storing (components : Vector Int32 6) (now : TimeUs) (todo : List Member)
  /-- the sequence number is loaded, for the number in the record -/
  | tagging (components : Vector Int32 6) (now : TimeUs) (sequence : UInt32)
  /-- all members are stored -/
  | stored (components : Vector Int32 6) (now : TimeUs)
  /-- the sequence number is loaded, to be made even -/
  | closing (components : Vector Int32 6) (now : TimeUs) (sequence : UInt32)
  deriving DecidableEq

/-- where the garbage collector is with the record -/
inductive Collector where
  | idle
  /-- the source is valid -/
  | valid (now maxAgeUs : TimeUs)
  /-- the record is too old -/
  | tooOld
  deriving DecidableEq

/-- where a reader is -/
inductive Reader where
  | idle
  /-- the sequence number is loaded, and even -/
  | loaded (now : TimeUs) (seqBefore : UInt32)
  /-- the source is valid -/
  | checked (now : TimeUs) (seqBefore : UInt32)
  /-- the record is not too old, and these bytes are copied -/
  | copying (seqBefore : UInt32) (age : TimeUs) (bytes : List UInt8)
  deriving DecidableEq

structure State (n : Nat) where
  cf : CoordField
  writer : Writer
  collector : Collector
  readers : Fin n → Reader

/-- the first access of a call, or the next access of the call that runs -/
inductive Event (n : Nat) where
  | publish (components : Vector Int32 6) (now : TimeUs)
  | write
  | gc (now maxAgeUs : TimeUs)
  | collect
  | sample (r : Fin n) (now : TimeUs)
  | read (r : Fin n)
  deriving DecidableEq

variable {n : Nat}

/-- an access of `ekk_field_publish` for a valid module -/
def write (moduleId : ModuleId) (cf : CoordField) : Writer → CoordField × Writer × List (Out n)
  | .idle => (cf, .idle, [])
  | .opening components now sequence =>
    ({ cf with sequence := sequence + 1 }, .storing components now members, [])
  | .storing components now (a :: todo) =>
    ({ cf with field := store moduleId components now cf.field a }, .storing components now todo,
      [])
  | .storing components now [] => (cf, .tagging components now cf.sequence, [])
  | .tagging components now sequence =>
    ({ cf with field := { cf.field with sequence := sequence.toUInt8 } }, .stored components now,
      [])
  | .stored components now => (cf, .closing components now cf.sequence, [])
  | .closing components now sequence =>
    ({ cf with sequence := sequence + 1 }, .idle, [.published components now])

/-- an access of `ekk_field_gc` to the record -/
def collect (cf : CoordField) : Collector → CoordField × Collector × List (Out n)
  | .idle => (cf, .idle, [])
  | .valid now maxAgeUs =>
    (cf, if now - cf.field.timestamp > maxAgeUs then .tooOld else .idle, [])
  | .tooOld =>
    ({ cf with field := { cf.field with source := invalidModuleId } }, .idle, [.cleared])

/-- an access of `ekk_field_sample` -/
def read (r : Fin n) (cf : CoordField) : Reader → Reader × List (Out n)
  | .idle => (.idle, [])
  | .loaded now seqBefore =>
    if cf.field.source = invalidModuleId then (.idle, [.notFound r])
    else (.checked now seqBefore, [])
  | .checked now seqBefore =>
    if now - cf.field.timestamp > maxAge then (.idle, [.expired r])
    else (.copying seqBefore (now - cf.field.timestamp) [], [])
  | .copying seqBefore age bytes =>
    if bytes.length < layout.size then
      (.copying seqBefore age (bytes ++ [(layout.encode cf.field).getD bytes.length 0]), [])
    else if cf.sequence ≠ seqBefore then (.idle, [.busy r])
    else (.idle, [.sampled r (layout.decode bytes) age])

def step (moduleId : ModuleId) (s : State n) : Event n → State n × List (Out n)
  | .publish components now =>
    match s.writer with
    | .idle => ({ s with writer := .opening components now s.cf.sequence }, [])
    | _ => (s, [])
  | .write =>
    let (cf, writer, outs) := write moduleId s.cf s.writer
    ({ s with cf := cf, writer := writer }, outs)
  | .gc now maxAgeUs =>
    match s.collector with
    | .idle =>
      ({ s with
          collector :=
            if s.cf.field.source = invalidModuleId then .idle else .valid now maxAgeUs }, [])
    | _ => (s, [])
  | .collect =>
    let (cf, collector, outs) := collect s.cf s.collector
    ({ s with cf := cf, collector := collector }, outs)
  | .sample r now =>
    match s.readers r with
    | .idle =>
      if s.cf.sequence % 2 = 1 then (s, [.busy r])
      else ({ s with readers := update s.readers r (.loaded now s.cf.sequence) }, [])
    | _ => (s, [])
  | .read r =>
    let (reader, outs) := read r s.cf (s.readers r)
    ({ s with readers := update s.readers r reader }, outs)

/-- the record after `ekk_field_init` -/
def initial (n : Nat) : State n := ⟨⟨Field.zero, 0⟩, .idle, .idle, fun _ => .idle⟩

/-- `n` readers of the field of a module, its publisher and the garbage collector -/
def seqlock (n : Nat) (moduleId : ModuleId) : Machine (State n) (Event n) (Out n) :=
  ⟨initial n, step moduleId⟩

variable {moduleId : ModuleId}

/-! ## who stores what -/

theorem members_complete : ∀ a, a ∈ members := by
  intro a
  cases a with
  | component i => exact (by decide : ∀ i, Member.component i ∈ members) i
  | timestamp => decide
  | source => decide

/-- a member is as the publisher stores it; the garbage collector may clear the source -/
def Agrees (moduleId : ModuleId) (components : Vector Int32 6) (now : TimeUs) (field : Field) :
    Member → Prop
  | .component i => field.components.get i = components.get i
  | .timestamp => field.timestamp = now
  | .source => field.source = moduleId ∨ field.source = invalidModuleId

variable {components : Vector Int32 6} {now age : TimeUs} {field : Field} {r : Fin n}
  {reader : Reader} (es : List (Event n)) {bytes : List UInt8} {region : EkKor.Field.Region}
  {result : Except Err Field}

theorem Agrees.store {b : Member} (a : Member) (h : b ≠ a → Agrees moduleId components now field b) :
    Agrees moduleId components now (store moduleId components now field a) b := by
  cases b with
  | component j =>
    cases a with
    | component i =>
      show (field.components.set i (components.get i))[j] = components[j]
      rw [Fin.getElem_fin, Vector.getElem_set]
      split_ifs with heq
      · obtain rfl : i = j := Fin.ext heq
        rfl
      · exact h fun he => heq (congrArg Fin.val (Member.component.inj he)).symm
    | timestamp => exact h (by simp)
    | source => exact h (by simp)
  | timestamp =>
    cases a with
    | component i => exact h (by simp)
    | timestamp => rfl
    | source => exact h (by simp)
  | source =>
    cases a with
    | component i => exact h (by simp)
    | timestamp => exact h (by simp)
    | source => exact Or.inl rfl

theorem source_store (a : Member) (h : field.source = moduleId ∨ field.source = invalidModuleId) :
    (store moduleId components now field a).source = moduleId ∨
      (store moduleId components now field a).source = invalidModuleId := by
  cases a with
  | component i => exact h
  | timestamp => exact h
  | source => exact Or.inl rfl

theorem Agrees.clear {b : Member} (h : Agrees moduleId components now field b) :
    Agrees moduleId components now { field with source := invalidModuleId } b := by
  cases b with
  | component i => exact h
  | timestamp => exact h
  | source => exact Or.inr rfl

/-! ## a thread that runs alone -/

theorem take_succ_getD {l : List UInt8} {k : Nat} (hk : k < l.length) :
    l.take (k + 1) = l.take k ++ [l.getD k 0] := by
  rw [take_succ_eq_append_getElem hk, getD_eq_getElem _ _ hk]

theorem step_read {s : State n} (hr : s.readers r = reader) :
    step moduleId s (.read r) =
      ({ s with readers := update s.readers r (Seqlock.read r s.cf reader).1 },
        (Seqlock.read r s.cf reader).2) := by
  rw [← hr]
  rfl

theorem run_copy {seqBefore : UInt32}
    (hr : ((seqlock n moduleId).run es).readers r = .copying seqBefore age bytes) (k : Nat)
    (hk : bytes.length + k ≤ layout.size) : let s := (seqlock n moduleId).run es
    (seqlock n moduleId).run (es ++ List.replicate k (.read r)) =
        { s with
          readers := update s.readers r (.copying seqBefore age
            (bytes ++ ((layout.encode s.cf.field).drop bytes.length).take k)) } ∧
      (seqlock n moduleId).trace (es ++ List.replicate k (.read r)) =
        (seqlock n moduleId).trace es := by
  intro s
  have hsize : (layout.encode s.cf.field).length = layout.size := layout.length_encode _
  induction k with
  | zero =>
    rw [replicate_zero, append_nil, take_zero, append_nil, ← hr,
      update_eq_self]
    exact ⟨rfl, rfl⟩
  | succ k ih =>
    obtain ⟨hrun, htrace⟩ := ih (Nat.le_of_succ_le hk)
    obtain ⟨copied, hcopied⟩ : ∃ copied, copied =
      bytes ++ ((layout.encode s.cf.field).drop bytes.length).take k := ⟨_, rfl⟩
    have hlen : copied.length = bytes.length + k := by
      rw [hcopied, length_append, length_take, length_drop, hsize]
      omega
    have hread : Seqlock.read r s.cf (.copying seqBefore age copied) =
        (.copying seqBefore age (copied ++ [(layout.encode s.cf.field).getD copied.length 0]),
          []) := if_pos (by omega)
    rw [← hcopied] at hrun
    have hstep : step moduleId ((seqlock n moduleId).run (es ++ List.replicate k (.read r)))
        (.read r) = ({ s with
          readers := update s.readers r (.copying seqBefore age
            (copied ++ [(layout.encode s.cf.field).getD copied.length 0])) }, []) := by
      rw [hrun, step_read (update_self r _ s.readers), hread, update_idem]
    have hnext : copied ++ [(layout.encode s.cf.field).getD copied.length 0] =
        bytes ++ ((layout.encode s.cf.field).drop bytes.length).take (k + 1) := by
      rw [take_succ_getD (by rw [length_drop, hsize]; omega), ← append_assoc, ← hcopied,
        hlen, getD_eq_getElem _ _ (by omega), getD_eq_getElem _ _ (by
          rw [length_drop, hsize]
          omega), getElem_drop]
    rw [replicate_succ', ← append_assoc, Machine.run_concat, Machine.trace_concat, htrace]
    show (step moduleId _ (.read r)).1 = _ ∧ _ ++ (step moduleId _ (.read r)).2 = _
    rw [hstep, hnext, append_nil]
    exact ⟨rfl, rfl⟩

theorem trace_copy (hr : ((seqlock n moduleId).run es).readers r = .copying ((seqlock n
    moduleId).run es).cf.sequence age bytes) (hle : bytes.length ≤ layout.size) :
    (seqlock n moduleId).trace (es ++ List.replicate (layout.size - bytes.length) (.read r) ++
        [.read r]) =
      (seqlock n moduleId).trace es ++ [.sampled r (layout.decode (bytes ++
        (layout.encode ((seqlock n moduleId).run es).cf.field).drop bytes.length)) age] := by
  obtain ⟨s, hs⟩ : ∃ s, s = (seqlock n moduleId).run es := ⟨_, rfl⟩
  obtain ⟨hrun, htrace⟩ := run_copy es hr (layout.size - bytes.length) (by omega)
  rw [← hs] at hr hrun ⊢
  have hsize : (layout.encode s.cf.field).length = layout.size := layout.length_encode _
  rw [take_of_length_le (by rw [length_drop, hsize])] at hrun
  obtain ⟨copied, hcopied⟩ : ∃ copied, copied =
    bytes ++ (layout.encode s.cf.field).drop bytes.length := ⟨_, rfl⟩
  have hlen : copied.length = layout.size := by
    rw [hcopied, length_append, length_drop, hsize]
    omega
  have hread : Seqlock.read r s.cf (.copying s.cf.sequence age copied) =
      (.idle, [.sampled r (layout.decode copied) age]) := by
    unfold Seqlock.read
    dsimp only
    rw [if_neg (by omega), if_neg (not_not.mpr rfl)]
  rw [← hcopied] at hrun ⊢
  rw [Machine.trace_concat, htrace, hrun]
  show _ ++ (step moduleId _ (.read r)).2 = _
  rw [step_read (update_self r _ s.readers), hread]

def answer : Out n → Option (Except Err Field)
  | .busy _ => some (.error .busy)
  | .notFound _ => some (.error .notFound)
  | .expired _ => some (.error .fieldExpired)
  | .sampled _ copy age => some (.ok (EkKor.Field.applyDecay copy age))
  | _ => none

theorem run_idle (hidle : ((seqlock n moduleId).run es).readers r = .idle) (k : Nat) :
    (seqlock n moduleId).run (es ++ List.replicate k (.read r)) = (seqlock n moduleId).run es ∧
      (seqlock n moduleId).trace (es ++ List.replicate k (.read r)) =
        (seqlock n moduleId).trace es := by
  induction k with
  | zero =>
    rw [replicate_zero, append_nil]
    exact ⟨rfl, rfl⟩
  | succ k ih =>
    obtain ⟨hrun, htrace⟩ := ih
    rw [replicate_succ', ← append_assoc, Machine.run_concat, Machine.trace_concat, hrun,
      htrace]
    show (step moduleId _ (.read r)).1 = _ ∧ _ ++ (step moduleId _ (.read r)).2 = _
    rw [step_read hidle]
    refine ⟨?_, append_nil _⟩
    show { (seqlock n moduleId).run es with
      readers := update ((seqlock n moduleId).run es).readers r .idle } = _
    rw [← hidle, update_eq_self]

theorem run_read (hr : ((seqlock n moduleId).run es).readers r = reader) : let s := (seqlock n moduleId).run es
    (seqlock n moduleId).run (es ++ [.read r]) =
        { s with readers := update s.readers r (Seqlock.read r s.cf reader).1 } ∧
      (seqlock n moduleId).trace (es ++ [.read r]) =
        (seqlock n moduleId).trace es ++ (Seqlock.read r s.cf reader).2 := by
  intro s
  rw [Machine.run_concat, Machine.trace_concat]
  show (step moduleId s (.read r)).1 = _ ∧ _ ++ (step moduleId s (.read r)).2 = _
  rw [step_read hr]
  exact ⟨rfl, rfl⟩

/-- a reader that runs alone has this answer after `k` accesses -/
def Answers (moduleId : ModuleId) (es : List (Event n)) (r : Fin n) (k : Nat)
    (result : Except Err Field) : Prop :=
  ∃ out, (seqlock n moduleId).trace (es ++ List.replicate k (.read r)) =
    (seqlock n moduleId).trace es ++ [out] ∧ answer out = some result

theorem answers_now {es : List (Event n)} (out : Out n)
    (hr : ((seqlock n moduleId).run es).readers r = reader)
    (hread : Seqlock.read r ((seqlock n moduleId).run es).cf reader = (.idle, [out]))
    (hout : answer out = some result) (k : Nat) : Answers moduleId es r (k + 1) result := by
  obtain ⟨hrun, htrace⟩ := run_read es hr
  rw [hread] at hrun htrace
  refine ⟨out, ?_, hout⟩
  rw [replicate_succ, append_cons, (run_idle _ ?_ k).2, htrace]
  rw [hrun]
  exact update_self r _ _

theorem answers_later {es : List (Event n)} (reader' : Reader)
    (hr : ((seqlock n moduleId).run es).readers r = reader)
    (hread : Seqlock.read r ((seqlock n moduleId).run es).cf reader = (reader', [])) {k : Nat} (h :
    ((seqlock n moduleId).run (es ++ [.read r])).readers r = reader' → ((seqlock n moduleId).run (es
    ++ [.read r])).cf = ((seqlock n moduleId).run es).cf → Answers moduleId (es ++ [.read r]) r k
    result) : Answers moduleId es r (k + 1) result := by
  obtain ⟨hrun, htrace⟩ := run_read es hr
  rw [hread] at hrun htrace
  obtain ⟨out, hlater, hout⟩ := h (by
    rw [hrun]
    exact update_self r _ _) (by rw [hrun])
  refine ⟨out, ?_, hout⟩
  rw [replicate_succ, append_cons, hlater, htrace, append_nil]

variable {cf : CoordField}

theorem answers_copying (hcf : ((seqlock n moduleId).run es).cf = cf)
    (hr : ((seqlock n moduleId).run es).readers r = .copying cf.sequence age []) :
    Answers moduleId es r (layout.size + 1) (.ok (EkKor.Field.applyDecay cf.field age)) := by
  rw [← hcf] at hr
  refine ⟨.sampled r cf.field age, ?_, rfl⟩
  have htrace := trace_copy es hr (Nat.zero_le _)
  rw [length_nil, nil_append, drop_zero, layout.decode_encode, hcf] at htrace
  rw [replicate_succ', ← append_assoc]
  exact htrace

theorem answers_checked (hcf : ((seqlock n moduleId).run es).cf = cf)
    (hr : ((seqlock n moduleId).run es).readers r = .checked now cf.sequence) :
    Answers moduleId es r (layout.size + 2)
      (if now - cf.field.timestamp > maxAge then .error .fieldExpired
      else .ok (EkKor.Field.applyDecay cf.field (now - cf.field.timestamp))) := by
  by_cases hage : now - cf.field.timestamp > maxAge
  · rw [if_pos hage]
    refine answers_now (.expired r) hr ?_ rfl _
    rw [hcf]
    exact if_pos hage
  · rw [if_neg hage]
    refine answers_later (.copying cf.sequence (now - cf.field.timestamp) []) hr ?_
      fun hnext hsame => answers_copying _ (hsame.trans hcf) hnext
    rw [hcf]
    exact if_neg hage

theorem answers_loaded (hcf : ((seqlock n moduleId).run es).cf = cf)
    (hr : ((seqlock n moduleId).run es).readers r = .loaded now cf.sequence) :
    Answers moduleId es r (layout.size + 3)
      (if cf.field.source = invalidModuleId then .error .notFound
      else if now - cf.field.timestamp > maxAge then .error .fieldExpired
      else .ok (EkKor.Field.applyDecay cf.field (now - cf.field.timestamp))) := by
  by_cases hsource : cf.field.source = invalidModuleId
  · rw [if_pos hsource]
    refine answers_now (.notFound r) hr ?_ rfl _
    rw [hcf]
    exact if_pos hsource
  · rw [if_neg hsource]
    refine answers_later (.checked now cf.sequence) hr ?_
      fun hnext hsame => answers_checked _ (hsame.trans hcf) hnext
    rw [hcf]
    exact if_neg hsource

/-- **A sample alone.** The reader is told what `ekk_field_sample` returns. -/
theorem sample_alone (hm : moduleId ≠ invalidModuleId) (es : List (Event n))
    (hidle : ((seqlock n moduleId).run es).readers r = .idle) (now : TimeUs)
    (hregion : region.fields moduleId = ((seqlock n moduleId).run es).cf) :
    ∃ out, (seqlock n moduleId).trace
        (es ++ [.sample r now] ++ List.replicate (layout.size + 3) (.read r)) =
          (seqlock n moduleId).trace es ++ [out] ∧
      answer out = some (EkKor.Field.sample (some region) moduleId now) := by
  have hrun : (seqlock n moduleId).run (es ++ [.sample r now]) =
      (step moduleId ((seqlock n moduleId).run es) (.sample r now)).1 := Machine.run_concat _ _ _
  have htrace : (seqlock n moduleId).trace (es ++ [.sample r now]) =
      (seqlock n moduleId).trace es ++
        (step moduleId ((seqlock n moduleId).run es) (.sample r now)).2 :=
    Machine.trace_concat _ _ _
  unfold EkKor.Field.sample
  dsimp only
  rw [if_neg hm, hregion]
  obtain ⟨s, hs⟩ : ∃ s, s = (seqlock n moduleId).run es := ⟨_, rfl⟩
  rw [← hs] at hidle hrun htrace ⊢
  have hsample : step moduleId s (.sample r now) = if s.cf.sequence % 2 = 1 then (s, [.busy r])
      else ({ s with readers := update s.readers r (.loaded now s.cf.sequence) }, []) := by
    unfold step
    dsimp only
    rw [hidle]
  rw [hsample] at hrun htrace
  by_cases hodd : s.cf.sequence % 2 = 1
  · rw [if_pos hodd] at hrun htrace ⊢
    refine ⟨.busy r, ?_, rfl⟩
    rw [(run_idle _ (by rw [hrun, hidle]) _).2, htrace]
  · rw [if_neg hodd] at hrun htrace ⊢
    have hcf : ((seqlock n moduleId).run (es ++ [.sample r now])).cf = s.cf := by rw [hrun]
    have hr : ((seqlock n moduleId).run (es ++ [.sample r now])).readers r =
        .loaded now s.cf.sequence := by
      rw [hrun]
      exact update_self r _ _
    obtain ⟨out, hlater, hout⟩ := answers_loaded (es ++ [.sample r now]) hcf hr
    exact ⟨out, by rw [hlater, htrace, append_nil], hout⟩

theorem sample_alone_first : ∃ out,
    (seqlock 1 1).trace (.sample 0 5 :: List.replicate 37 (.read 0)) = [out] ∧
      answer out = some (EkKor.Field.sample (some Field.init) 1 5) :=
  sample_alone (by decide) [] rfl 5 rfl

end Seqlock
end EkKor
