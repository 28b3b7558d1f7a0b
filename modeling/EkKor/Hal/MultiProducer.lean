import EkKor.Hal.MsgQueue

/-!
# Several senders to one queue

Two sends that load the same head take the same slot, and one of their messages is lost.  When no
send loads the head while another send to the queue is on its way, the queue is first in, first out.

* `SendKnows`, `RecvKnows`   what the local variables of a call say of the queue;
* `Inv`            the queue holds a list, with the calls that are on their way;
* `Inv.sent`, `Inv.got`   the steps of a call;
* `Exclusive`      a step does not load the head while another send is on its way;
* `Intact`         what was received is what was accepted, as far as it goes;
* `intact`         it is, in the runs whose steps are exclusive and whose buffers are long enough.
-/

namespace EkKor
namespace MsgQueue
open Circular (Marks Holds)
open List Function
open Runs (Machine EveryStep)

/-! ## what the calls know -/

/-- the local variables of a send, when the queue holds `ls` -/
def SendKnows (q : Queue) (ls : List Slot) (msg : Message) : SendAt → Prop
  | .loadHead => True
  | .loadTail head => head = q.marks.head
  | .store head => head = q.marks.head ∧ ls.length + 1 < msgQueueSize
  | .setValid head =>
    head = q.marks.head ∧ ls.length + 1 < msgQueueSize ∧ (q.slots head).content = msg
  | .storeHead head =>
    head = q.marks.head ∧ ls.length + 1 < msgQueueSize ∧ q.slots head = ⟨msg, true⟩

/-- the local variables of a receive with a buffer of `len` bytes, when the queue holds `ls` -/
def RecvKnows (q : Queue) (ls : List Slot) (len : Nat) : RecvAt → Prop
  | .loadTail => True
  | .loadHead tail => tail = q.marks.tail
  | .loadValid tail | .load tail => tail = q.marks.tail ∧ ls ≠ []
  | .clearValid tail msg | .storeTail tail msg =>
    tail = q.marks.tail ∧ (ls.map Slot.content).head? = some msg ∧ msg.data.length ≤ len

def Inside (send : Option (Message × SendAt)) : Prop :=
  ∃ msg point, send = some (msg, point) ∧ point ≠ .loadHead

def cleared : Option (Nat × RecvAt) → Nat
  | some (_, .storeTail _ _) => 1
  | _ => 0

/-- the queue holds `ls`; `sends` and `recv` are the calls that are on their way -/
structure Inv (q : Queue) (ls : List Slot) (sends : Nat → Option (Message × SendAt))
    (recv : Option (Nat × RecvAt)) : Prop where
  holds : Holds msgQueueSize q.slots q.marks ls
  valid : ∀ slot ∈ ls.drop (cleared recv), slot.valid = true
  short : ∀ slot ∈ ls, slot.content.data.length ≤ msgMaxLen
  sender : ∀ core msg point, sends core = some (msg, point) →
    msg.data.length ≤ msgMaxLen ∧ SendKnows q ls msg point
  receiver : ∀ len point, recv = some (len, point) → RecvKnows q ls len point
  alone : ∀ core core', Inside (sends core) → Inside (sends core') → core = core'

variable {q q' : Queue} {ls ls' : List Slot} {sends sends' : Nat → Option (Message × SendAt)}
  {recv recv' : Option (Nat × RecvAt)} {core : Nat} {msg : Message}

theorem not_inside_none : ¬Inside none := by
  rintro ⟨_, _, h, _⟩
  cases h

theorem not_inside_loadHead : ¬Inside (some (msg, .loadHead)) := by
  rintro ⟨_, _, h, hpoint⟩
  cases h
  exact hpoint rfl

instance instDecidableInside : (send : Option (Message × SendAt)) → Decidable (Inside send)
  | none => isFalse not_inside_none
  | some (msg, point) =>
    if h : point = .loadHead then isFalse (h ▸ not_inside_loadHead)
    else isTrue ⟨msg, point, rfl, h⟩

theorem sendKnows_of_not_inside {send : Option (Message × SendAt)} {point : SendAt}
    (h : ¬Inside send) (hsend : send = some (msg, point)) : SendKnows q ls msg point := by
  cases point with
  | loadHead => trivial
  | _ => exact absurd ⟨msg, _, hsend, nofun⟩ h

theorem SendKnows.congr {point : SendAt} (h : SendKnows q ls msg point)
    (hhead : q'.marks.head = q.marks.head) (hslot : q'.slots q.marks.head = q.slots q.marks.head)
    (hlen : ls'.length ≤ ls.length) : SendKnows q' ls' msg point := by
  have hroom (hlt : ls.length + 1 < msgQueueSize) : ls'.length + 1 < msgQueueSize :=
    Nat.lt_of_le_of_lt (Nat.succ_le_succ hlen) hlt
  cases point with
  | loadHead => trivial
  | loadTail head => exact h.trans hhead.symm
  | store head => exact ⟨h.1.trans hhead.symm, hroom h.2⟩
  | setValid head =>
    obtain ⟨rfl, hlt, hcontent⟩ := h
    exact ⟨hhead.symm, hroom hlt, by rw [hslot, hcontent]⟩
  | storeHead head =>
    obtain ⟨rfl, hlt, hcontent⟩ := h
    exact ⟨hhead.symm, hroom hlt, by rw [hslot, hcontent]⟩

variable {point : RecvAt} {len : Nat}

theorem RecvKnows.append (h : RecvKnows q ls len point) (htail : q'.marks.tail = q.marks.tail)
    (new : List Slot) : RecvKnows q' (ls ++ new) len point := by
  have hfirst {msg : Message} (h : (ls.map Slot.content).head? = some msg) :
      ((ls ++ new).map Slot.content).head? = some msg := by
    rw [map_append, head?_append, h]
    rfl
  cases point with
  | loadTail => trivial
  | loadHead tail => exact h.trans htail.symm
  | loadValid tail | load tail =>
    exact ⟨h.1.trans htail.symm, fun heq => h.2 (append_eq_nil_iff.mp heq).1⟩
  | clearValid tail msg | storeTail tail msg =>
    exact ⟨h.1.trans htail.symm, hfirst h.2.1, h.2.2⟩

theorem Inv.calls (h : Inv q ls sends recv)
    (hsends : ∀ core, sends' core = sends core ∨ sends' core = none ∨
      ∃ msg, sends' core = some (msg, .loadHead) ∧ msg.data.length ≤ msgMaxLen)
    (hrecv : recv' = recv ∨ recv = none ∧ ∃ len, recv' = some (len, .loadTail)) :
    Inv q ls sends' recv' := by
  have hinside (core : Nat) (hin : Inside (sends' core)) : Inside (sends core) := by
    rcases hsends core with heq | heq | ⟨_, heq, _⟩
    · rw [← heq]
      exact hin
    · rw [heq] at hin
      exact absurd hin not_inside_none
    · rw [heq] at hin
      exact absurd hin not_inside_loadHead
  refine ⟨h.holds, ?_, h.short, fun core msg point hp => ?_, fun len point hp => ?_,
    fun core core' hin hin' => h.alone core core' (hinside core hin) (hinside core' hin')⟩
  · rcases hrecv with rfl | ⟨rfl, len, rfl⟩
    · exact h.valid
    · exact h.valid
  · rcases hsends core with heq | heq | ⟨_, heq, hlen⟩
    · exact h.sender core msg point (heq.symm.trans hp)
    · rw [heq] at hp
      cases hp
    · rw [heq] at hp
      cases hp
      exact ⟨hlen, trivial⟩
  · rcases hrecv with rfl | ⟨rfl, len, rfl⟩
    · exact h.receiver len point hp
    · cases hp
      trivial

/-! ## sending -/

theorem Inv.moves (h : Inv q ls sends recv) {point : SendAt} (hp : sends core = some (msg, point))
    (hin : ∀ other, other ≠ core → ¬Inside (sends other)) (q' : Queue) (new : List Slot)
    (send : Option SendAt) (hholds : Holds msgQueueSize q'.slots q'.marks (ls ++ new))
    (htail : q'.marks.tail = q.marks.tail)
    (hnew : ∀ slot ∈ new, slot.valid = true ∧ slot.content = msg)
    (hsend : ∀ point, send = some point → SendKnows q' (ls ++ new) msg point) :
    Inv q' (ls ++ new) (update sends core (send.map fun point => (msg, point))) recv := by
  have hmsg := (h.sender core msg point hp).1
  refine ⟨hholds, fun slot hslot => ?_, fun slot hslot => ?_, fun c msg' point' hc => ?_,
    fun len point' hr => (h.receiver len point' hr).append htail new, fun c c' hc hc' => ?_⟩
  · rw [drop_append] at hslot
    rcases mem_append.mp hslot with hold | hlast
    · exact h.valid slot hold
    · exact (hnew slot (mem_of_mem_drop hlast)).1
  · rcases mem_append.mp hslot with hold | hlast
    · exact h.short slot hold
    · rw [(hnew slot hlast).2]
      exact hmsg
  · by_cases heq : c = core
    · subst heq
      rw [update_self] at hc
      obtain ⟨point, hpoint, hpair⟩ := Option.map_eq_some_iff.mp hc
      cases hpair
      exact ⟨hmsg, hsend _ hpoint⟩
    · rw [update_of_ne heq] at hc
      exact ⟨(h.sender c msg' point' hc).1, sendKnows_of_not_inside (hin c heq) hc⟩
  · have hcore (c : Nat) (hc : Inside (update sends core
        (send.map fun point => (msg, point)) c)) : c = core := by
      by_contra hne
      rw [update_of_ne hne] at hc
      exact hin c hne hc
    rw [hcore c hc, hcore c' hc']

/-- what a step of a send does to the list that the queue holds -/
inductive Sent (q' : Queue) (ls : List Slot) (sends : Nat → Option (Message × SendAt))
    (recv : Option (Nat × RecvAt)) (core : Nat) (msg : Message) : SendAt ⊕ Bool → Prop
  | goes {point : SendAt} : Inv q' ls (update sends core (some (msg, point))) recv →
      Sent q' ls sends recv core msg (.inl point)
  | full : Inv q' ls (update sends core none) recv → Sent q' ls sends recv core msg (.inr false)
  | takes : Inv q' (ls ++ [⟨msg, true⟩]) (update sends core none) recv →
      Sent q' ls sends recv core msg (.inr true)

/-- **Sending.** A send that is alone stores its message and appends it. -/
theorem Inv.sent (h : Inv q ls sends recv) {point : SendAt}
    (hp : sends core = some (msg, point))
    (hin : ∀ other, other ≠ core → ¬Inside (sends other)) :
    Sent (sendStep q msg point).1 ls sends recv core msg (sendStep q msg point).2 := by
  have hknows := (h.sender core msg point hp).2
  have hstay (q' : Queue) (send : Option SendAt)
      (hholds : Holds msgQueueSize q'.slots q'.marks ls) (htail : q'.marks.tail = q.marks.tail)
      (hsend : ∀ point, send = some point → SendKnows q' ls msg point) :
      Inv q' ls (update sends core (send.map fun point => (msg, point))) recv := by
    have hinv := h.moves hp hin q' [] send
    rw [append_nil] at hinv
    exact hinv hholds htail nofun hsend
  cases point with
  | loadHead =>
    refine .goes (hstay q (some (.loadTail q.marks.head)) h.holds rfl fun _ heq => ?_)
    cases heq
    rfl
  | loadTail head =>
    obtain rfl := hknows
    unfold sendStep
    dsimp only
    split_ifs with hfull
    · exact .full (hstay q none h.holds rfl nofun)
    · refine .goes (hstay q (some (.store q.marks.head)) h.holds rfl fun _ heq => ?_)
      cases heq
      have hroom : ls.length + 1 ≠ msgQueueSize := fun heq => hfull (h.holds.full_iff.mpr heq)
      exact ⟨rfl, Nat.lt_of_le_of_ne h.holds.free hroom⟩
  | store head =>
    obtain ⟨rfl, hroom⟩ := hknows
    refine .goes (hstay (q.store q.marks.head msg) (some (.setValid q.marks.head))
      (h.holds.write _) rfl fun _ heq => ?_)
    cases heq
    refine ⟨rfl, hroom, ?_⟩
    show (update q.slots q.marks.head _ q.marks.head).content = msg
    rw [update_self]
  | setValid head =>
    obtain ⟨rfl, hroom, hcontent⟩ := hknows
    refine .goes (hstay (q.setValid q.marks.head true) (some (.storeHead q.marks.head))
      (h.holds.write _) rfl fun _ heq => ?_)
    cases heq
    refine ⟨rfl, hroom, ?_⟩
    show update q.slots q.marks.head _ q.marks.head = _
    rw [update_self, hcontent]
  | storeHead head =>
    obtain ⟨rfl, hroom, hslot⟩ := hknows
    have hpublish := h.holds.publish hroom
    rw [hslot] at hpublish
    refine .takes (h.moves hp hin ⟨q.slots, ⟨(q.marks.head + 1) % msgQueueSize, q.marks.tail⟩⟩
      [⟨msg, true⟩] none hpublish rfl (fun slot hmem => ?_) nofun)
    rw [mem_singleton.mp hmem]
    exact ⟨rfl, rfl⟩

/-! ## receiving -/

/-- what a step of a receive with a buffer of `len` bytes does to the list that the queue holds -/
inductive Got (q' : Queue) (ls : List Slot) (sends : Nat → Option (Message × SendAt)) (len : Nat) :
    RecvAt ⊕ Option Message → Prop
  | goes {point : RecvAt} (ls' : List Slot) : ls'.map Slot.content = ls.map Slot.content →
      Inv q' ls' sends (some (len, point)) → Got q' ls sends len (.inl point)
  | empty : ls = [] → Inv q' ls sends none → Got q' ls sends len (.inr none)
  | takes {msg : Message} (ls' : List Slot) : ls.map Slot.content = msg :: ls'.map Slot.content →
      msg.data.length ≤ len → Inv q' ls' sends none → Got q' ls sends len (.inr (some msg))

theorem Inv.goes {point' : RecvAt} (h : Inv q ls sends (some (len, point)))
    (hcleared : cleared (some (len, point)) = 0) (hknows : RecvKnows q ls len point') :
    Inv q ls sends (some (len, point')) := by
  have hvalid := h.valid
  rw [hcleared] at hvalid
  refine ⟨h.holds, fun slot hslot => hvalid slot (mem_of_mem_drop hslot), h.short, h.sender,
    fun len' point'' heq => ?_, h.alone⟩
  cases heq
  exact hknows

theorem Inv.ends (h : Inv q ls sends (some (len, point)))
    (hcleared : cleared (some (len, point)) = 0) : Inv q ls sends none := by
  have hvalid := h.valid
  rw [hcleared] at hvalid
  exact ⟨h.holds, hvalid, h.short, h.sender, nofun, h.alone⟩

/-- **Receiving.** A receive takes the oldest message, when there is one. -/
theorem Inv.got (h : Inv q ls sends (some (len, point)))
    (hroom : ∀ tail, point = .load tail → (q.slots tail).content.data.length ≤ len) :
    Got (recvStep q point).1 ls sends len (recvStep q point).2 := by
  have hknows := h.receiver len point rfl
  cases point with
  | loadTail => exact .goes _ rfl (h.goes rfl rfl)
  | loadHead tail =>
    obtain rfl := hknows
    unfold recvStep
    dsimp only
    split_ifs with hempty
    · refine .empty ?_ (h.ends rfl)
      cases hls : ls with
      | nil => rfl
      | cons slot ls' => exact absurd hempty (hls ▸ h.holds).uncons.1
    · refine .goes _ rfl (h.goes rfl ⟨rfl, fun hnil => ?_⟩)
      exact hempty (hnil ▸ h.holds).nil_eq
  | loadValid tail =>
    obtain ⟨rfl, hne⟩ := hknows
    obtain ⟨slot, ls, rfl⟩ := exists_cons_of_ne_nil hne
    have hslot := h.holds.uncons.2.1
    have hvalid : (q.slots q.marks.tail).valid = true := by
      rw [hslot]
      exact h.valid slot mem_cons_self
    unfold recvStep
    dsimp only
    rw [if_pos hvalid]
    exact .goes _ rfl (h.goes rfl ⟨rfl, hne⟩)
  | load tail =>
    obtain ⟨rfl, hne⟩ := hknows
    obtain ⟨slot, ls, rfl⟩ := exists_cons_of_ne_nil hne
    have hslot := h.holds.uncons.2.1
    refine .goes _ rfl (h.goes rfl ⟨rfl, ?_, hroom _ rfl⟩)
    rw [hslot]
    rfl
  | clearValid tail msg =>
    obtain ⟨rfl, hfirst, hlen⟩ := hknows
    cases ls with
    | nil => cases hfirst
    | cons slot ls =>
      obtain rfl := Option.some.inj hfirst
      have hslot := h.holds.uncons.2.1
      have hne := h.holds.uncons.1
      refine .goes (⟨slot.content, false⟩ :: ls) rfl ⟨?_, fun slot' hmem => ?_,
        fun slot' hmem => ?_, fun c msg' point' hc => ?_, fun len' point' heq => ?_, h.alone⟩
      · have hwrite := h.holds.rewrite ⟨slot.content, false⟩
        rw [← hslot] at hwrite ⊢
        exact hwrite
      · exact h.valid slot' (mem_cons_of_mem _ hmem)
      · rcases mem_cons.mp hmem with rfl | hmem
        · exact h.short slot mem_cons_self
        · exact h.short slot' (mem_cons_of_mem _ hmem)
      · obtain ⟨hshort, hknows⟩ := h.sender c msg' point' hc
        refine ⟨hshort, hknows.congr rfl ?_ (Nat.le_refl _)⟩
        exact update_of_ne hne.symm _ _
      · cases heq
        exact ⟨rfl, rfl, hlen⟩
  | storeTail tail msg =>
    obtain ⟨rfl, hfirst, hlen⟩ := hknows
    cases ls with
    | nil => cases hfirst
    | cons slot ls =>
      obtain rfl := Option.some.inj hfirst
      refine .takes ls rfl hlen ⟨h.holds.uncons.2.2, h.valid, fun slot' hmem => ?_,
        fun c msg' point' hc => ?_, nofun, h.alone⟩
      · exact h.short slot' (mem_cons_of_mem _ hmem)
      · obtain ⟨hshort, hknows⟩ := h.sender c msg' point' hc
        exact ⟨hshort, hknows.congr rfl rfl (Nat.le_succ _)⟩

/-! ## all cores -/

def Place.sendsTo (dest : Nat) : Place → Option (Message × SendAt)
  | .send msg dest' _ point => if dest' = dest then some (msg, point) else none
  | _ => none

def Place.receives : Place → Option (Nat × RecvAt)
  | .recv len point => some (len, point)
  | _ => none

def Fresh (dest : Nat) (place : Place) : Prop :=
  place.sendsTo dest = none ∨
    ∃ msg, place.sendsTo dest = some (msg, .loadHead) ∧ msg.data.length ≤ msgMaxLen

def Kept (s : System) (outs : List Out) (dest : Nat) : Prop :=
  ∃ ls, Inv (s.queues dest) ls (fun core => (s.cores core).sendsTo dest) (s.cores dest).receives ∧
    accepted dest outs = received dest outs ++ ls.map Slot.content

/-- the step does not load the head of a queue while another send to it is on its way -/
def Exclusive (s : System) : Event → Prop
  | .step core => ∀ msg dest rest, s.cores core = .send msg dest rest .loadHead →
      ∀ other, other ≠ core → ¬Inside ((s.cores other).sendsTo dest)
  | _ => True

def Roomy (s : System) : Event → Prop
  | .step core => ∀ len tail, s.cores core = .recv len (.load tail) →
      ((s.queues core).slots tail).content.data.length ≤ len
  | _ => True

theorem accepted_append (dest : Nat) (outs outs' : List Out) :
    accepted dest (outs ++ outs') = accepted dest outs ++ accepted dest outs' :=
  filterMap_append

theorem received_append (core : Nat) (outs outs' : List Out) :
    received core (outs ++ outs') = received core outs ++ received core outs' :=
  filterMap_append

theorem cut_of_le (h : msg.data.length ≤ len) : msg.cut len = msg := by
  unfold Message.cut
  rw [take_of_length_le h]

variable {s : System} {outs : List Out} {dest : Nat}

theorem enter_fresh (msg : Message) (dests : List Nat) (dest : Nat) :
    Fresh dest (enter msg dests).1 ∧ (enter msg dests).1.receives = none ∧
      accepted dest (enter msg dests).2 = [] ∧ received dest (enter msg dests).2 = [] := by
  induction dests with
  | nil => exact ⟨Or.inl rfl, rfl, rfl, rfl⟩
  | cons first rest ih =>
    unfold enter
    split_ifs with hbad
    · exact ih
    · obtain ⟨_, hlen⟩ := not_or.mp hbad
      refine ⟨?_, rfl, rfl, rfl⟩
      unfold Fresh Place.sendsTo
      dsimp only
      split_ifs
      · exact Or.inr ⟨msg, rfl, Nat.le_of_not_lt hlen⟩
      · exact Or.inl rfl

theorem Inv.setCore {recv' : Option (Nat × RecvAt)} {sends : Nat → Option (Message × SendAt)}
    (h : Inv q ls sends recv) (hsends : ∀ other, other ≠ core → sends other = (s.cores other).sendsTo dest)
    {place : Place} (hfresh : Fresh dest place)
    (hrecv : recv' = recv ∨ recv = none ∧ ∃ len, recv' = some (len, .loadTail)) :
    Inv q ls (fun other => ((s.setCore core place).cores other).sendsTo dest) recv' := by
  refine h.calls (fun other => ?_) hrecv
  by_cases heq : other = core
  · subst heq
    right
    show (update s.cores other place other).sendsTo dest = none ∨ ∃ msg,
      (update s.cores other place other).sendsTo dest = some (msg, .loadHead) ∧ _
    rw [update_self]
    exact hfresh
  · left
    show (update s.cores core place other).sendsTo dest = sends other
    rw [update_of_ne heq, hsends other heq]

theorem Kept.unseen (h : Kept s outs dest) {s' : System} {outs' : List Out} {place : Place}
    (hqueue : s'.queues dest = s.queues dest) (hcores : s'.cores = (s.setCore core place).cores)
    (hfresh : Fresh dest place)
    (hrecv : dest = core → place.receives = (s.cores core).receives ∨
      (s.cores core).receives = none ∧ ∃ len, place.receives = some (len, .loadTail))
    (houts : accepted dest outs' = [] ∧ received dest outs' = []) :
    Kept s' (outs ++ outs') dest := by
  obtain ⟨ls, hinv, hkept⟩ := h
  refine ⟨ls, ?_, ?_⟩
  · rw [hqueue, hcores]
    refine hinv.setCore (fun _ _ => rfl) hfresh ?_
    show (update s.cores core place dest).receives = _ ∨ _ ∧
      ∃ len, (update s.cores core place dest).receives = _
    by_cases heq : dest = core
    · subst heq
      rw [update_self]
      exact hrecv rfl
    · rw [update_of_ne heq]
      exact Or.inl rfl
  · rw [accepted_append, received_append, houts.1, houts.2, append_nil, append_nil]
    exact hkept

theorem setCore_sendsTo (s : System) (core : Nat) (place : Place) (dest : Nat) :
    (fun other => ((s.setCore core place).cores other).sendsTo dest) =
      update (fun other => (s.cores other).sendsTo dest) core (place.sendsTo dest) := by
  funext other
  show (update s.cores core place other).sendsTo dest = _
  by_cases heq : other = core
  · subst heq
    rw [update_self, update_self]
  · rw [update_of_ne heq, update_of_ne heq]

theorem accepted_cons (target : Nat) (msg : Message) (outs : List Out) :
    accepted dest (.accepted target msg :: outs) =
      if target = dest then msg :: accepted dest outs else accepted dest outs := by
  by_cases heq : target = dest <;> simp [accepted, heq]

theorem received_cons (core : Nat) (msg : Message) (len : Nat) (outs : List Out) :
    received dest (.received core msg len :: outs) =
      if core = dest then msg.cut len :: received dest outs else received dest outs := by
  by_cases heq : core = dest <;> simp [received, heq]

theorem kept_send (h : Kept s outs dest) {rest : List Nat} {point : SendAt}
    (hcore : s.cores core = .send msg dest rest point) (hex : Exclusive s (.step core)) :
    Kept (step s (.step core)).1 (outs ++ (step s (.step core)).2) dest := by
  obtain ⟨ls, hinv, hkept⟩ := h
  have hidle : (s.cores core).receives = none := by
    rw [hcore]
    rfl
  have hp : (s.cores core).sendsTo dest = some (msg, point) := by
    rw [hcore]
    exact if_pos rfl
  have halone (other : Nat) (hne : other ≠ core) : ¬Inside ((s.cores other).sendsTo dest) := by
    by_cases hpoint : point = .loadHead
    · subst hpoint
      exact hex msg dest rest hcore other hne
    · exact fun hin => hne (hinv.alone other core hin ⟨msg, point, hp, hpoint⟩)
  have hsent := hinv.sent hp halone
  have hqueue (q : Queue) (place : Place) :
      (((s.setQueue dest q).setCore core place).queues dest) = q := update_self _ _ _
  have hreceives (place : Place) (hplace : place.receives = none) :
      (update s.cores core place dest).receives = (s.cores dest).receives := by
    by_cases heq : dest = core
    · subst heq
      rw [update_self, hplace, hidle]
    · rw [update_of_ne heq]
  obtain ⟨hfresh, hnone, hacc, hrecv⟩ := enter_fresh msg rest dest
  have hends {q : Queue} {ls : List Slot} (hinv : Inv q ls
      (update (fun core => (s.cores core).sendsTo dest) core none) (s.cores dest).receives) :
      Inv q ls (fun other => (update s.cores core (enter msg rest).1 other).sendsTo dest)
        (update s.cores core (enter msg rest).1 dest).receives := by
    refine hinv.setCore (fun other hne => update_of_ne hne _ _) hfresh (Or.inl ?_)
    exact hreceives _ hnone
  unfold step
  dsimp only
  rw [hcore]
  dsimp only
  generalize sendStep (s.queues dest) msg point = out at hsent ⊢
  obtain ⟨q, next⟩ := out
  cases hsent with
  | @goes point' hinv' =>
    refine ⟨ls, ?_, ?_⟩
    · have hsends := setCore_sendsTo s core (.send msg dest rest point') dest
      rw [show (Place.send msg dest rest point').sendsTo dest = some (msg, point') from
        if_pos rfl] at hsends
      rw [hqueue]
      show Inv q ls (fun other => ((s.setCore core (.send msg dest rest point')).cores other).sendsTo
        dest) (update s.cores core _ dest).receives
      rw [hsends, hreceives _ rfl]
      exact hinv'
    · rw [append_nil]
      exact hkept
  | full hinv' =>
    refine ⟨ls, ?_, ?_⟩
    · rw [hqueue]
      exact hends hinv'
    · rw [accepted_append, received_append]
      show _ ++ accepted dest (enter msg rest).2 = _ ++ received dest (enter msg rest).2 ++ _
      rw [hacc, hrecv, append_nil, append_nil]
      exact hkept
  | takes hinv' =>
    refine ⟨ls ++ [⟨msg, true⟩], ?_, ?_⟩
    · rw [hqueue]
      exact hends hinv'
    · rw [accepted_append, received_append]
      show _ ++ accepted dest (.accepted dest msg :: (enter msg rest).2) =
        _ ++ received dest (enter msg rest).2 ++ _
      rw [accepted_cons, if_pos rfl, hacc, hkept, hrecv, append_nil, map_append,
        append_assoc]
      rfl

theorem kept_recv (h : Kept s outs core) (hcore : s.cores core = .recv len point)
    (hroom : Roomy s (.step core)) :
    Kept (step s (.step core)).1 (outs ++ (step s (.step core)).2) core := by
  obtain ⟨ls, hinv, hkept⟩ := h
  have hplace : (s.cores core).receives = some (len, point) := by
    rw [hcore]
    rfl
  rw [hplace] at hinv
  have hgot := hinv.got fun tail hpoint => hroom len tail (hpoint ▸ hcore)
  have hqueue (q : Queue) (place : Place) :
      (((s.setQueue core q).setCore core place).queues core) = q := update_self _ _ _
  have hcalls {q : Queue} {ls : List Slot} {place : Place} (hsend : place.sendsTo core = none)
      (hinv : Inv q ls (fun other => (s.cores other).sendsTo core) place.receives) :
      Inv q ls (fun other => (update s.cores core place other).sendsTo core)
        (update s.cores core place core).receives := by
    rw [update_self]
    exact hinv.setCore (fun _ _ => rfl) (Or.inl hsend) (Or.inl rfl)
  unfold step
  dsimp only
  rw [hcore]
  dsimp only
  generalize recvStep (s.queues core) point = out at hgot ⊢
  obtain ⟨q, next⟩ := out
  cases hgot with
  | @goes point' ls' hmap hinv' =>
    refine ⟨ls', ?_, ?_⟩
    · rw [hqueue]
      exact hcalls rfl hinv'
    · rw [append_nil, hmap]
      exact hkept
  | empty hnil hinv' =>
    refine ⟨ls, ?_, ?_⟩
    · rw [hqueue]
      exact hcalls rfl hinv'
    · rw [accepted_append, received_append]
      show _ ++ [] = _ ++ [] ++ _
      rw [append_nil, append_nil]
      exact hkept
  | takes ls' hmap hlen hinv' =>
    refine ⟨ls', ?_, ?_⟩
    · rw [hqueue]
      exact hcalls rfl hinv'
    · rw [accepted_append, received_append, received_cons, if_pos rfl, cut_of_le hlen]
      show _ ++ [] = _ ++ [_] ++ _
      rw [append_nil, hkept, hmap, append_assoc]
      rfl

/-- **A step.** Each queue keeps what it accepted and its core did not receive. -/
theorem kept_step {e : Event} (h : Kept s outs dest) (hex : Exclusive s e) (hroom : Roomy s e) :
    Kept (step s e).1 (outs ++ (step s e).2) dest := by
  have hstays : Kept s (outs ++ []) dest := by
    rw [append_nil]
    exact h
  cases e with
  | send core target msg =>
    unfold step
    dsimp only
    split
    · next hcore =>
      obtain ⟨hfresh, hnone, houts⟩ := enter_fresh msg (targets core target) dest
      refine h.unseen rfl rfl hfresh (fun _ => Or.inl ?_) houts
      rw [hnone, hcore]
      rfl
    · exact hstays
  | recv core len =>
    unfold step
    dsimp only
    split
    · next hcore =>
      refine h.unseen rfl rfl (Or.inl rfl) (fun _ => Or.inr ⟨?_, len, rfl⟩) ⟨rfl, rfl⟩
      rw [hcore]
      rfl
    · exact hstays
  | step core =>
    cases hcore : s.cores core with
    | idle =>
      unfold step
      dsimp only
      rw [hcore]
      exact hstays
    | send msg target rest point =>
      by_cases htarget : target = dest
      · subst htarget
        exact kept_send h hcore hex
      · have hqueue (q : Queue) : (s.setQueue target q).queues dest = s.queues dest :=
          update_of_ne (Ne.symm htarget) _ _
        have hidle : (s.cores core).receives = none := by
          rw [hcore]
          rfl
        unfold step
        dsimp only
        rw [hcore]
        dsimp only
        obtain ⟨q, point' | ok⟩ := sendStep (s.queues target) msg point
        · exact h.unseen (hqueue q) rfl (Or.inl (if_neg htarget)) (fun _ => Or.inl hidle.symm)
            ⟨rfl, rfl⟩
        · obtain ⟨hfresh, hnone, hacc, hrecv⟩ := enter_fresh msg rest dest
          refine h.unseen (hqueue q) rfl hfresh (fun _ => Or.inl (hnone.trans hidle.symm)) ?_
          cases ok with
          | false => exact ⟨hacc, hrecv⟩
          | true =>
            refine ⟨?_, hrecv⟩
            show accepted dest (.accepted target msg :: (enter msg rest).2) = []
            rw [accepted_cons, if_neg htarget, hacc]
    | recv len point =>
      by_cases hdest : core = dest
      · subst hdest
        exact kept_recv h hcore hroom
      · have hqueue (q : Queue) : (s.setQueue core q).queues dest = s.queues dest :=
          update_of_ne (Ne.symm hdest) _ _
        have hother {P : Prop} (heq : dest = core) : P := absurd heq.symm hdest
        unfold step
        dsimp only
        rw [hcore]
        dsimp only
        obtain ⟨q, point' | _ | msg⟩ := recvStep (s.queues core) point
        · exact h.unseen (hqueue q) rfl (Or.inl rfl) hother ⟨rfl, rfl⟩
        · exact h.unseen (hqueue q) rfl (Or.inl rfl) hother ⟨rfl, rfl⟩
        · exact h.unseen (hqueue q) rfl (Or.inl rfl) hother
            ⟨rfl, by rw [received_cons, if_neg hdest]; rfl⟩

/-! ## receiving the rest -/

/-- a receive with a buffer that is long enough, without another core between its steps -/
def recvCall (core : Nat) : List Event := .recv core msgMaxLen :: List.replicate 6 (.step core)

/-- `n` receives -/
def drain (core n : Nat) : List Event := (List.replicate n (recvCall core)).flatten

def System.receiving (s : System) (core : Nat) (q : Queue) (place : Place) : System :=
  (s.setQueue core q).setCore core place

theorem receiving_receiving (s : System) (core : Nat) (q q' : Queue) (place place' : Place) :
    (s.receiving core q place).receiving core q' place' = s.receiving core q' place' := by
  unfold System.receiving System.setQueue System.setCore
  rw [update_idem, update_idem]

theorem step_receiving (s : System) (core len : Nat) {point' : RecvAt}
    (h : recvStep q point = (q', .inl point')) :
    step (s.receiving core q (.recv len point)) (.step core) =
      (s.receiving core q' (.recv len point'), []) := by
  have hplace : (s.receiving core q (.recv len point)).cores core = .recv len point :=
    update_self _ _ _
  have hqueue : (s.receiving core q (.recv len point)).queues core = q := update_self _ _ _
  unfold step
  dsimp only
  rw [hplace]
  dsimp only
  rw [hqueue, h]
  exact congrArg (·, []) (receiving_receiving s core q q' _ _)

theorem step_received (s : System) (core len : Nat) (h : recvStep q point = (q', .inr (some msg))) :
    step (s.receiving core q (.recv len point)) (.step core) =
      (s.receiving core q' .idle, [.received core msg len]) := by
  have hplace : (s.receiving core q (.recv len point)).cores core = .recv len point :=
    update_self _ _ _
  have hqueue : (s.receiving core q (.recv len point)).queues core = q := update_self _ _ _
  unfold step
  dsimp only
  rw [hplace]
  dsimp only
  rw [hqueue, h]
  exact congrArg (·, [Out.received core msg len]) (receiving_receiving s core q q' _ _)

/-- the queue holds `ls`, and no call is on its way -/
structure Loaded (q : Queue) (ls : List Slot) : Prop where
  holds : Holds msgQueueSize q.slots q.marks ls
  valid : ∀ slot ∈ ls, slot.valid = true
  short : ∀ slot ∈ ls, slot.content.data.length ≤ msgMaxLen

variable {slot : Slot}

theorem Loaded.first (h : Loaded q (slot :: ls)) :
    (msgQueueRecv q).2 = some slot.content ∧ Loaded (msgQueueRecv q).1 ls := by
  obtain ⟨hne, hslot, _⟩ := h.holds.uncons
  have hvalid : (q.slots q.marks.tail).valid = true := by
    rw [hslot]
    exact h.valid slot mem_cons_self
  unfold msgQueueRecv
  rw [if_neg hne, if_pos hvalid, hslot]
  exact ⟨rfl, (h.holds.rewrite _).uncons.2.2, fun slot' hmem => h.valid slot' (mem_cons_of_mem _ hmem),
    fun slot' hmem => h.short slot' (mem_cons_of_mem _ hmem)⟩

theorem run_recvCall (h : Loaded (s.queues core) (slot :: ls)) (hidle : s.cores core = .idle) :
    cores.runFrom s (recvCall core) = s.receiving core (msgQueueRecv (s.queues core)).1 .idle ∧
      cores.traceFrom s (recvCall core) = [.received core slot.content msgMaxLen] := by
  obtain ⟨hne, hslot, _⟩ := h.holds.uncons
  have hvalid : ((s.queues core).slots (s.queues core).marks.tail).valid = true := by
    rw [hslot]
    exact h.valid slot mem_cons_self
  have h0 : step s (.recv core msgMaxLen) =
      (s.receiving core (s.queues core) (.recv msgMaxLen .loadTail), []) := by
    unfold step System.receiving System.setQueue
    dsimp only
    rw [hidle, update_eq_self]
  generalize hq : s.queues core = q at *
  have h1 := step_receiving s core msgMaxLen (show recvStep q .loadTail = _ from rfl)
  have h2 := step_receiving s core msgMaxLen (show recvStep q (.loadHead q.marks.tail) = _ from
    if_neg hne)
  have h3 := step_receiving s core msgMaxLen (show recvStep q (.loadValid q.marks.tail) = _ from
    if_pos hvalid)
  have h4 := step_receiving s core msgMaxLen (show recvStep q (.load q.marks.tail) = _ from rfl)
  rw [hslot] at h4
  have h5 := step_receiving s core msgMaxLen
    (show recvStep q (.clearValid q.marks.tail slot.content) = _ from rfl)
  have h6 := step_received s core msgMaxLen
    (show recvStep (q.setValid q.marks.tail false) (.storeTail q.marks.tail slot.content) = _ from rfl)
  have hqueue : (msgQueueRecv q).1 = { q.setValid q.marks.tail false with
      marks := ⟨q.marks.head, (q.marks.tail + 1) % msgQueueSize⟩ } := by
    unfold msgQueueRecv
    rw [if_neg hne, if_pos hvalid]
  rw [hqueue]
  constructor
  · simp only [recvCall, List.replicate, Machine.runFrom, Machine.next, cores, List.foldl, h0, h1, h2,
      h3, h4, h5, h6]
    rfl
  · simp only [recvCall, List.replicate, Machine.traceFrom, Machine.next, Machine.outs, cores, h0, h1,
      h2, h3, h4, h5, h6, nil_append, append_nil]

/-- **Receiving on.** Each receive gets one more of the messages in the queue. -/
theorem received_drain (h : Loaded (s.queues core) ls) (hidle : s.cores core = .idle) :
    received core (cores.traceFrom s (drain core ls.length)) = ls.map Slot.content := by
  induction ls generalizing s with
  | nil => rfl
  | cons slot ls ih =>
    obtain ⟨hrun, htrace⟩ := run_recvCall h hidle
    have hnext : drain core (slot :: ls).length = recvCall core ++ drain core ls.length := by
      unfold drain
      rw [length_cons, replicate_succ, flatten_cons]
    have hqueue (q : Queue) : (s.receiving core q .idle).queues core = q :=
      update_self _ _ _
    rw [hnext, Machine.traceFrom_append, hrun, htrace, singleton_append, received_cons,
      if_pos rfl, ih, cut_of_le (h.short slot mem_cons_self), map_cons]
    · rw [hqueue]
      exact h.first.2
    · exact update_self _ _ _

/-! ## runs -/

def pending (es : List Event) (dest : Nat) : Nat :=
  (accepted dest (cores.trace es)).length - (received dest (cores.trace es)).length

/-- each message comes out once and in order, as far as the core received; and a core that goes on
receiving gets the rest -/
def Intact (es : List Event) (dest : Nat) : Prop :=
  received dest (cores.trace es) <+: accepted dest (cores.trace es) ∧
    ((cores.run es).cores dest = .idle →
      received dest (cores.trace (es ++ drain dest (pending es dest))) =
        accepted dest (cores.trace es))

def Careful (es : List Event) : Prop :=
  EveryStep (fun pre e => Exclusive (cores.run pre) e ∧ Roomy (cores.run pre) e) es

theorem kept_start (dest : Nat) : Kept cores.start [] dest := by
  have hempty : Holds msgQueueSize Queue.zero.slots Queue.zero.marks [] :=
    ⟨Nat.zero_lt_succ _, Nat.zero_lt_succ _, rfl, fun _ hj => absurd hj (Nat.not_lt_zero _)⟩
  exact ⟨[], ⟨hempty, nofun, nofun, nofun, nofun, fun _ _ hin => absurd hin not_inside_none⟩, rfl⟩

theorem kept_run (es : List Event) (h : Careful es) (dest : Nat) :
    Kept (cores.run es) (cores.trace es) dest := by
  refine Runs.history_induction (I := fun es => Kept (cores.run es) (cores.trace es) dest)
    (kept_start dest) (fun es e hkept hstep => ?_) es h
  rw [Machine.run_concat, Machine.trace_concat]
  exact kept_step hkept hstep.1 hstep.2

def Event.actor : Event → Nat
  | .send core _ _ | .recv core _ | .step core => core

theorem idle_of_absent {es : List Event} {other : Nat} (h : ∀ e ∈ es, e.actor ≠ other) :
    (cores.run es).cores other = .idle := by
  have hother {s : System} {q : Queue} {core dest : Nat} {place : Place} (hne : core ≠ other) :
      ((s.setQueue dest q).setCore core place).cores other = s.cores other :=
    update_of_ne hne.symm _ _
  have hset {s : System} {core : Nat} {place : Place} (hne : core ≠ other) :
      (s.setCore core place).cores other = s.cores other := update_of_ne hne.symm _ _
  induction es using List.reverseRecOn with
  | nil => rfl
  | append_singleton es e ih =>
    have hne := h e mem_concat_self
    have hbefore := ih fun e' he' => h e' (mem_append_left _ he')
    rw [Machine.run_concat, ← hbefore]
    show (step (cores.run es) e).1.cores other = _
    cases e with
    | send core dest msg =>
      unfold step
      dsimp only
      split
      · exact hset hne
      · rfl
    | recv core len =>
      unfold step
      dsimp only
      split
      · exact hset hne
      · rfl
    | step core =>
      unfold step
      dsimp only
      split
      · rfl
      · split <;> exact hother hne
      · split <;> exact hother hne

/-- whether the step is exclusive and the buffer long enough, when `n` cores make calls -/
def careful (n : Nat) (s : System) : Event → Bool
  | .step core =>
    match s.cores core with
    | .send _ dest _ .loadHead => (List.range n).all fun other =>
        decide (other ≠ core → ¬Inside ((s.cores other).sendsTo dest))
    | .recv len (.load tail) => ((s.queues core).slots tail).content.data.length ≤ len
    | _ => true
  | _ => true

theorem careful_of_below {n : Nat} {es : List Event} (hes : ∀ e ∈ es, e.actor < n)
    (h : ∀ k : Fin es.length, careful n (cores.run (es.take k)) (es.get k) = true) : Careful es := by
  refine (Runs.everyStep_iff _ _).mpr fun k => ?_
  have hk := h k
  have hbefore : ∀ e ∈ es.take k, e.actor < n := fun e he => hes e (mem_of_mem_take he)
  generalize es.take k = pre at *
  generalize es.get k = e at *
  cases e with
  | send | recv => exact ⟨trivial, trivial⟩
  | step core =>
    unfold careful at hk
    dsimp only at hk
    constructor
    · intro msg dest rest hcore other hne
      rw [hcore] at hk
      by_cases hlt : other < n
      · exact of_decide_eq_true (all_eq_true.mp hk other (mem_range.mpr hlt)) hne
      · have habsent : ∀ e ∈ pre, e.actor ≠ other := fun e he heq => hlt (heq ▸ hbefore e he)
        rw [idle_of_absent habsent]
        exact not_inside_none
    · intro len tail hcore
      rw [hcore] at hk
      exact of_decide_eq_true hk

/-- **Main.** The messages come out once and in order when no send loads the head of a queue while
another send to it is on its way, and the buffers are long enough. -/
theorem intact (es : List Event) (h : Careful es) (dest : Nat) : Intact es dest := by
  obtain ⟨ls, hinv, hkept⟩ := kept_run es h dest
  refine ⟨hkept ▸ prefix_append _ _, fun hidle => ?_⟩
  have hloaded : Loaded ((cores.run es).queues dest) ls := by
    refine ⟨hinv.holds, ?_, hinv.short⟩
    have hvalid := hinv.valid
    rw [hidle] at hvalid
    exact hvalid
  have hpending : pending es dest = ls.length := by
    unfold pending
    rw [hkept, length_append, length_map, Nat.add_sub_cancel_left]
  rw [hpending, Machine.trace_append, received_append, received_drain hloaded hidle, hkept]

def oneByOne : List Event :=
  .send 0 3 ⟨1, 7, [10]⟩ :: List.replicate 5 (.step 0) ++
    .send 1 3 ⟨2, 7, [20]⟩ :: List.replicate 5 (.step 1) ++ recvCall 3

theorem intact_oneByOne : Careful oneByOne ∧ Intact oneByOne 3 :=
  have h : Careful oneByOne := careful_of_below (n := 4) (by decide) (by decide)
  ⟨h, intact oneByOne h 3⟩

def overlapping : List Event :=
  [.send 0 3 ⟨1, 7, [10]⟩, .send 1 3 ⟨2, 7, [20]⟩, .step 0, .step 1] ++
    List.replicate 4 (.step 0) ++ List.replicate 4 (.step 1)

/-- both sends succeed, and one message comes out -/
theorem not_intact : ¬∀ es dest, Intact es dest := by
  intro h
  exact absurd ((h overlapping 3).2 rfl) (by decide)

end MsgQueue
end EkKor
