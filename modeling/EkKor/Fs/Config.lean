import EkKor.Fs.Numerals
import Mathlib.Data.List.DropRight
import Mathlib.Data.List.GetD
import Mathlib.Data.List.Nodup

/-!
# The configuration (`config_*` in `fs_server.c`)

A table of keys with values, written to a file with one line for each entry.  Strings are lists of
bytes without their terminating zero.

* `ConfigEntry`, `Config`          the table;
* `configSet`, `configSetInt`, `configGetStr`, `configGetInt`   its calls;
* `configSave`, `configLoad`       the file;
* `Clean`, `Fits`                  entries, and tables, that a file can hold;
* `Built`                          the tables that the calls can build;
* `config_survives_iff`            the tables that survive a save and a load.
-/

namespace EkKor
namespace Fs
open List

/-! ## the table -/

abbrev configMaxEntries : Nat := 32
abbrev configKeyMaxLen : Nat := 31
abbrev configValueMaxLen : Nat := 63

/-- `config_entry_t` -/
structure ConfigEntry where
  key : List UInt8
  value : List UInt8
  deriving DecidableEq

/-- the first `g_config_count` entries of `g_config` -/
abbrev Config := List ConfigEntry

/-- `config_find` -/
def configFind (c : Config) (key : List UInt8) : Option Nat := c.findIdx? fun e => e.key == key

/-- `config_get_str` -/
def configGetStr (c : Config) (key default : List UInt8) : List UInt8 :=
  match configFind c key with
  | some idx => (c.getD idx ⟨[], []⟩).value
  | none => default

/-- `config_get_int` -/
def configGetInt (c : Config) (key : List UInt8) (default : Int32) : Int32 :=
  match configFind c key with
  | some idx => simpleAtoi (c.getD idx ⟨[], []⟩).value
  | none => default

/-- `config_set`; none is the result -1, which leaves the table as it is -/
def configSet (c : Config) (key value : List UInt8) : Option Config :=
  if key.length > configKeyMaxLen ∨ value.length > configValueMaxLen then none
  else
    match configFind c key with
    | some idx => some (c.modify idx fun e => { e with value := value })
    | none => if c.length ≥ configMaxEntries then none else some (c ++ [⟨key, value⟩])

/-- `config_set_int` -/
def configSetInt (c : Config) (key : List UInt8) (value : Int32) : Option Config :=
  configSet c key (simpleItoa value 16)

/-! ## the file -/

def isWhite (c : UInt8) : Bool := c == 0x20 || c == 0x09 || c == 0x0D || c == 0x0A

def inLine (c : UInt8) : Bool := c != 0x0A && c != 0x0D

def inKey (c : UInt8) : Bool := c != 0x3D && inLine c

def ConfigEntry.line (e : ConfigEntry) : List UInt8 := e.key ++ 0x3D :: e.value ++ [0x0A]

/-- the lines that fit into the buffer of 512 bytes, when `pos` bytes of it are used -/
def configLines : Nat → Config → List UInt8
  | _, [] => []
  | pos, e :: es => if pos < 512 - 100 then e.line ++ configLines (pos + e.line.length) es else []

/-- the results of the calls of EKKFS in a save, and what is in the file when one of them fails -/
structure SaveCalls where
  create : Int
  opened : Int
  write : Nat → Int
  left : Option (List UInt8)

/-- `config_save`: the result, and the file; a file has the bytes that were written last -/
def configSave (fs : SaveCalls) (c : Config) : Int × Option (List UInt8) :=
  let buf := configLines 0 c
  if fs.create < 0 then (fs.create, fs.left)
  else if fs.opened ≠ 0 then (fs.opened, fs.left)
  else if fs.write buf.length ≠ buf.length then (-1, fs.left)
  else (0, some buf)

/-- the loop of `config_load` with at most `fuel` rounds: `p` is what has not been read -/
def configParse : Nat → List UInt8 → Config → Config
  | 0, _, c => c
  | fuel + 1, p, c =>
    if p = [] ∨ c.length ≥ configMaxEntries then c
    else
      match p.dropWhile isWhite with
      | [] => c
      | first :: p =>
        if first = 0x23 then configParse fuel ((first :: p).dropWhile (· ≠ 0x0A)) c
        else
          let key := (first :: p).takeWhile inKey
          match (first :: p).dropWhile inKey with
          | [] => configParse fuel [] c
          | stop :: p =>
            if stop ≠ 0x3D then configParse fuel ((stop :: p).dropWhile (· ≠ 0x0A)) c
            else
              let value := p.takeWhile inLine
              let p := (p.dropWhile inLine).drop 1
              let key := key.rdropWhile isBlank
              let value := (value.dropWhile isBlank).rdropWhile isBlank
              let c :=
                if key.length > 0 ∧ key.length ≤ configKeyMaxLen ∧
                    value.length ≤ configValueMaxLen then c ++ [⟨key, value⟩]
                else c
              configParse fuel p c

/-- `config_load`; every round of the loop reads a byte -/
def configLoad (file : Option (List UInt8)) : Config :=
  match file with
  | none => []
  | some content =>
    let buf := (content.take (512 - 1)).takeWhile (· ≠ 0)
    configParse buf.length buf []

/-! ## lines -/

variable {q : UInt8 → Bool} {l rest p : List UInt8} {x : UInt8} {e : ConfigEntry} {c : Config}
  {fuel : Nat} (pos : Nat)

theorem takeWhile_stop (hl : ∀ y ∈ l, q y = true) (hx : q x = false) :
    (l ++ x :: rest).takeWhile q = l := by
  rw [takeWhile_append_of_pos hl, takeWhile_cons_of_neg (by rw [hx]; decide),
    append_nil]

theorem dropWhile_stop (hl : ∀ y ∈ l, q y = true) (hx : q x = false) :
    (l ++ x :: rest).dropWhile q = x :: rest := by
  rw [dropWhile_append_of_pos hl, dropWhile_cons_of_neg (by rw [hx]; decide)]

/-- no blank at the ends -/
structure Trimmed (l : List UInt8) : Prop where
  first : ∀ x ∈ l.head?, isBlank x = false
  last : ∀ x ∈ l.getLast?, isBlank x = false

theorem Trimmed.rdropWhile (h : Trimmed l) : l.rdropWhile isBlank = l := by
  rw [rdropWhile_eq_self_iff]
  intro hl
  rw [h.last _ (getLast?_eq_some_getLast hl)]
  exact Bool.false_ne_true

theorem Trimmed.dropWhile (h : Trimmed l) : l.dropWhile isBlank = l := by
  cases l with
  | nil => rfl
  | cons x l => exact dropWhile_cons_of_neg (by rw [h.first x rfl]; exact Bool.false_ne_true)

theorem head?_rdropWhile (hx : x ∈ (l.rdropWhile isBlank).head?) : x ∈ l.head? := by
  obtain ⟨rest, hrest⟩ := rdropWhile_prefix isBlank (l := l)
  rw [← hrest]
  exact mem_head?_append_of_mem_head? hx

theorem trimmed_rdropWhile (h : ∀ x ∈ l.head?, isBlank x = false) :
    Trimmed (l.rdropWhile isBlank) := by
  refine ⟨fun x hx => h x (head?_rdropWhile hx), fun x hx => ?_⟩
  have hne : l.rdropWhile isBlank ≠ [] := by
    intro hnil
    rw [hnil] at hx
    cases hx
  have hlast := rdropWhile_last_not isBlank l hne
  rw [getLast?_eq_some_getLast hne] at hx
  rw [← Option.some.inj hx]
  exact Bool.eq_false_iff.mpr hlast

theorem head?_dropWhile (hx : x ∈ (l.dropWhile q).head?) : q x = false := by
  have hnot := head?_dropWhile_not q l
  rw [hx] at hnot
  exact hnot

/-- an entry that is read as it was written -/
structure Clean (e : ConfigEntry) : Prop where
  nonempty : e.key ≠ []
  key : ∀ x ∈ e.key, inKey x = true
  keyTrimmed : Trimmed e.key
  noComment : ∀ x ∈ e.key.head?, x ≠ 0x23
  value : ∀ x ∈ e.value, inLine x = true
  valueTrimmed : Trimmed e.value

/-- the lengths that `config_set` accepts, and no end of a string -/
structure Valid (e : ConfigEntry) : Prop where
  key : e.key.length ≤ configKeyMaxLen
  value : e.value.length ≤ configValueMaxLen
  keyString : 0 ∉ e.key
  valueString : 0 ∉ e.value

theorem not_white (hkey : inKey x = true) (hblank : isBlank x = false) : isWhite x = false := by
  unfold inKey inLine at hkey
  unfold isBlank at hblank
  unfold isWhite
  rw [Bool.or_eq_false_iff] at hblank
  rw [Bool.and_eq_true, Bool.and_eq_true, bne_iff_ne, bne_iff_ne, bne_iff_ne] at hkey
  rw [hblank.1, hblank.2, beq_false_of_ne hkey.2.1, beq_false_of_ne hkey.2.2]
  rfl

/-- **One line.** -/
theorem configParse_line (he : Clean e) (hv : Valid e) (hc : c.length < configMaxEntries)
    (fuel : Nat) (rest : List UInt8) :
    configParse (fuel + 1) (e.line ++ rest) c = configParse fuel rest (c ++ [e]) := by
  obtain ⟨first, key, hkey⟩ := exists_cons_of_ne_nil he.nonempty
  have hline : e.line ++ rest = e.key ++ 0x3D :: (e.value ++ 0x0A :: rest) := by
    unfold ConfigEntry.line
    rw [append_assoc, append_assoc, cons_append, singleton_append]
  have hfirst : isWhite first = false :=
    not_white (he.key first (by rw [hkey]; exact mem_cons_self))
      (he.keyTrimmed.first first (by rw [hkey]; rfl))
  have hcomment : first ≠ 0x23 := he.noComment first (by rw [hkey]; rfl)
  have hcons : e.key ++ 0x3D :: (e.value ++ 0x0A :: rest) =
      first :: (key ++ 0x3D :: (e.value ++ 0x0A :: rest)) := by
    rw [hkey, cons_append]
  have hgo : ¬ (e.line ++ rest = [] ∨ c.length ≥ configMaxEntries) := by
    rw [hline, hcons]
    rintro (h | h)
    · cases h
    · exact Nat.not_le.mpr hc h
  have htake : (first :: (key ++ 0x3D :: (e.value ++ 0x0A :: rest))).takeWhile inKey = e.key := by
    rw [← hcons]
    exact takeWhile_stop he.key (by decide)
  have hdrop : (first :: (key ++ 0x3D :: (e.value ++ 0x0A :: rest))).dropWhile inKey =
      0x3D :: (e.value ++ 0x0A :: rest) := by
    rw [← hcons]
    exact dropWhile_stop he.key (by decide)
  have hlength : e.key.length > 0 ∧ e.key.length ≤ configKeyMaxLen ∧
      e.value.length ≤ configValueMaxLen :=
    ⟨length_pos_iff.mpr he.nonempty, hv.key, hv.value⟩
  rw [configParse, if_neg hgo, hline, hcons,
    dropWhile_cons_of_neg (by rw [hfirst]; exact Bool.false_ne_true)]
  dsimp only
  rw [if_neg hcomment, hdrop, htake]
  dsimp only
  rw [if_neg (not_not.mpr rfl), takeWhile_stop he.value (by decide), dropWhile_stop he.value (by decide),
    he.keyTrimmed.rdropWhile, he.valueTrimmed.dropWhile, he.valueTrimmed.rdropWhile, if_pos hlength]
  rfl

/-- **All lines.** -/
theorem configParse_lines {es : Config} (hclean : ∀ e ∈ es, Clean e) (hvalid : ∀ e ∈ es, Valid e)
    (hroom : c.length + es.length ≤ configMaxEntries) (hfuel : es.length ≤ fuel) :
    configParse fuel (es.flatMap ConfigEntry.line) c = c ++ es := by
  induction es generalizing fuel c with
  | nil =>
    rw [flatMap_nil, append_nil]
    cases fuel with
    | zero => rfl
    | succ fuel =>
      rw [configParse, if_pos (.inl rfl)]
  | cons e es ih =>
    rw [length_cons] at hroom hfuel
    obtain ⟨fuel, rfl⟩ := Nat.exists_eq_succ_of_ne_zero (Nat.ne_of_gt (Nat.lt_of_lt_of_le
      (Nat.succ_pos _) hfuel))
    rw [flatMap_cons, configParse_line (hclean e mem_cons_self)
      (hvalid e mem_cons_self) (by omega), ih, append_assoc, singleton_append]
    · exact fun e he => hclean e (mem_cons_of_mem _ he)
    · exact fun e he => hvalid e (mem_cons_of_mem _ he)
    · rw [length_append, length_singleton]
      omega
    · exact Nat.le_of_succ_le_succ hfuel

/-! ## what is loaded -/

/-- the entry of a line: its key starts at `first` -/
theorem clean_entry {first : UInt8} (hwhite : isWhite first = false) (hcomment : first ≠ 0x23)
    (hlength : (((first :: p).takeWhile inKey).rdropWhile isBlank).length > 0) :
    Clean ⟨((first :: p).takeWhile inKey).rdropWhile isBlank,
      ((rest.takeWhile inLine).dropWhile isBlank).rdropWhile isBlank⟩ := by
  have hhead {x : UInt8} (hx : x ∈ ((first :: p).takeWhile inKey).head?) : x = first := by
    rw [takeWhile_cons] at hx
    split_ifs at hx
    · exact (Option.some.inj hx).symm
    · cases hx
  have hblank : isBlank first = false := by
    unfold isWhite at hwhite
    rw [Bool.or_eq_false_iff, Bool.or_eq_false_iff] at hwhite
    exact hwhite.1.1
  refine ⟨length_pos_iff.mp hlength, fun x hx => ?_, trimmed_rdropWhile fun x hx => ?_,
    fun x hx => ?_, fun x hx => ?_, trimmed_rdropWhile fun x hx => head?_dropWhile hx⟩
  · exact mem_takeWhile_imp (( rdropWhile_prefix isBlank _).subset hx)
  · rw [hhead hx]
    exact hblank
  · rw [hhead (head?_rdropWhile hx)]
    exact hcomment
  · have hmem : x ∈ (rest.takeWhile inLine).dropWhile isBlank :=
      ( rdropWhile_prefix isBlank _).subset hx
    exact mem_takeWhile_imp ((dropWhile_sublist isBlank).subset hmem)

/-- **Loaded entries** are clean, whatever is in the file. -/
theorem clean_of_parse (hc : ∀ e ∈ c, Clean e) : ∀ e ∈ configParse fuel p c, Clean e := by
  induction fuel generalizing p c with
  | zero => exact hc
  | succ fuel ih =>
    rw [configParse]
    split_ifs with hstop
    · exact hc
    · cases hp : p.dropWhile isWhite with
      | nil => exact hc
      | cons first p' =>
        dsimp only
        have hwhite : isWhite first = false := by
          refine head?_dropWhile (l := p) ?_
          rw [hp]
          rfl
        split_ifs with hcomment
        · exact ih hc
        · cases (first :: p').dropWhile inKey with
          | nil => exact ih hc
          | cons stop rest =>
            dsimp only
            split_ifs with hinvalid hlength
            · exact ih hc
            · refine ih fun e he => ?_
              rcases mem_append.mp he with he | he
              · exact hc e he
              · rw [mem_singleton.mp he]
                exact clean_entry hwhite hcomment hlength.1
            · exact ih hc

/-! ## what is saved -/

def savedEntries : Nat → Config → Config
  | _, [] => []
  | pos, e :: es => if pos < 512 - 100 then e :: savedEntries (pos + e.line.length) es else []

def Fits (c : Config) : Prop := (c.dropLast.flatMap ConfigEntry.line).length < 512 - 100

theorem configLines_eq (c : Config) :
    configLines pos c = (savedEntries pos c).flatMap ConfigEntry.line := by
  induction c generalizing pos with
  | nil => rfl
  | cons e es ih =>
    rw [configLines, savedEntries]
    split_ifs
    · rw [ih, flatMap_cons]
    · rfl

theorem savedEntries_start (c : Config) : savedEntries pos c <+: c := by
  induction c generalizing pos with
  | nil => exact prefix_refl []
  | cons e es ih =>
    rw [savedEntries]
    split_ifs
    · exact cons_prefix_cons.mpr ⟨rfl, ih _⟩
    · exact nil_prefix

theorem savedEntries_eq_iff (c : Config) :
    savedEntries pos c = c ↔
      c = [] ∨ pos + (c.dropLast.flatMap ConfigEntry.line).length < 512 - 100 := by
  induction c generalizing pos with
  | nil => exact iff_of_true rfl (.inl rfl)
  | cons e es ih =>
    rw [savedEntries, or_iff_right (cons_ne_nil e es)]
    split_ifs with hpos
    · rw [cons_inj_right, ih]
      cases es with
      | nil => exact iff_of_true (.inl rfl) hpos
      | cons e' es =>
        rw [or_iff_right (cons_ne_nil e' es), dropLast_cons_cons, flatMap_cons,
          length_append, Nat.add_assoc]
    · refine iff_of_false not_false fun h => hpos ?_
      exact Nat.lt_of_le_of_lt (Nat.le_add_right _ _) h

theorem savedEntries_eq_iff_fits (c : Config) : savedEntries 0 c = c ↔ Fits c := by
  rw [savedEntries_eq_iff, Nat.zero_add]
  refine or_iff_right_of_imp ?_
  rintro rfl
  decide

theorem length_line (he : Valid e) : e.line.length ≤ 96 := by
  have hkey : e.key.length ≤ 31 := he.key
  have hvalue : e.value.length ≤ 63 := he.value
  unfold ConfigEntry.line
  rw [length_append, length_append, length_cons, length_singleton]
  omega

theorem length_configLines (hc : ∀ e ∈ c, Valid e) (pos : Nat) (hpos : pos ≤ 508) :
    pos + (configLines pos c).length ≤ 508 := by
  induction c generalizing pos with
  | nil => exact hpos
  | cons e es ih =>
    have hline := length_line (hc e mem_cons_self)
    rw [configLines]
    split_ifs with hfit
    · have hrest := ih (fun e he => hc e (mem_cons_of_mem _ he)) (pos + e.line.length)
        (by omega)
      rw [length_append]
      omega
    · exact hpos

theorem noZero_lines (hc : ∀ e ∈ c, Valid e) : 0 ∉ c.flatMap ConfigEntry.line := by
  intro hmem
  obtain ⟨e, he, hline⟩ := mem_flatMap.mp hmem
  rcases mem_append.mp hline with hline | hend
  · rcases mem_append.mp hline with hkey | hvalue
    · exact (hc e he).keyString hkey
    · rcases mem_cons.mp hvalue with hequals | hvalue
      · exact absurd hequals (by decide)
      · exact (hc e he).valueString hvalue
  · exact absurd (mem_singleton.mp hend) (by decide)

theorem length_le_lines (c : Config) : c.length ≤ (c.flatMap ConfigEntry.line).length := by
  induction c with
  | nil => exact Nat.le_refl 0
  | cons e es ih =>
    have hline : 1 ≤ e.line.length := by
      unfold ConfigEntry.line
      rw [length_append, length_singleton]
      exact Nat.le_add_left 1 _
    rw [flatMap_cons, length_append, length_cons]
    omega

/-- **Save and load**, when all entries whose lines are written are clean. -/
theorem configLoad_lines (hc : ∀ e ∈ c, Valid e) (hroom : c.length ≤ configMaxEntries)
    (hclean : ∀ e ∈ savedEntries 0 c, Clean e) :
    configLoad (some (configLines 0 c)) = savedEntries 0 c := by
  have hsub := (savedEntries_start 0 c).subset
  have hvalid : ∀ e ∈ savedEntries 0 c, Valid e := fun e he => hc e (hsub he)
  have hlength := length_configLines hc 0 (Nat.zero_le _)
  have hbuf : ((configLines 0 c).take (512 - 1)).takeWhile (· ≠ 0) = configLines 0 c := by
    rw [take_of_length_le (by omega), takeWhile_eq_self_iff]
    intro x hx
    rw [decide_eq_true_iff]
    rintro rfl
    rw [configLines_eq] at hx
    exact noZero_lines hvalid hx
  unfold configLoad
  dsimp only
  rw [hbuf, configLines_eq, configParse_lines hclean hvalid ?_ (length_le_lines _), nil_append]
  rw [length_nil, Nat.zero_add]
  exact (savedEntries_start 0 c).length_le.trans hroom

/-! ## the tables that can be built -/

/-- the tables that calls of `config_set` and `config_set_int` build from an empty one -/
inductive Built : Config → Prop where
  | empty : Built []
  | set {c c' : Config} {key value : List UInt8} (h : Built c) (hkey : 0 ∉ key)
      (hvalue : 0 ∉ value) (hset : configSet c key value = some c') : Built c'
  | setInt {c c' : Config} {key : List UInt8} {value : Int32} (h : Built c) (hkey : 0 ∉ key)
      (hset : configSetInt c key value = some c') : Built c'

/-- valid entries with different keys -/
structure Proper (c : Config) : Prop where
  valid : ∀ e ∈ c, Valid e
  keys : (c.map ConfigEntry.key).Nodup
  room : c.length ≤ configMaxEntries

variable {c' : Config} {key value : List UInt8}

theorem configFind_eq_none (h : configFind c key = none) : ∀ e ∈ c, e.key ≠ key := by
  intro e he heq
  have hnone := findIdx?_eq_none_iff.mp h e he
  exact absurd heq (ne_of_beq_false hnone)

theorem configFind_eq_some {idx : Nat} (h : configFind c key = some idx) :
    ∃ hidx : idx < c.length, (c.get ⟨idx, hidx⟩).key = key := by
  obtain ⟨hidx, hkey, _⟩ := findIdx?_eq_some_iff_getElem.mp h
  exact ⟨hidx, beq_iff_eq.mp hkey⟩

theorem configFind_of_mem (hkeys : (c.map ConfigEntry.key).Nodup) (he : e ∈ c) :
    ∃ idx, configFind c e.key = some idx ∧ c.getD idx ⟨[], []⟩ = e := by
  cases hfind : configFind c e.key with
  | none => exact absurd rfl (configFind_eq_none hfind e he)
  | some idx =>
    obtain ⟨hidx, hkey⟩ := configFind_eq_some hfind
    refine ⟨idx, rfl, ?_⟩
    rw [getD_eq_getElem _ _ hidx]
    exact inj_on_of_nodup_map hkeys (getElem_mem hidx) he hkey

/-- **One call.** The table is proper after it, and the key has its value. -/
theorem configSet_spec (hc : Proper c) (hkey : 0 ∉ key) (hvalue : 0 ∉ value)
    (hset : configSet c key value = some c') : Proper c' ∧ ⟨key, value⟩ ∈ c' := by
  unfold configSet at hset
  by_cases hlong : key.length > configKeyMaxLen ∨ value.length > configValueMaxLen
  · rw [if_pos hlong] at hset
    cases hset
  rw [if_neg hlong] at hset
  rw [not_or, Nat.not_lt, Nat.not_lt] at hlong
  have hvalid : Valid ⟨key, value⟩ := ⟨hlong.1, hlong.2, hkey, hvalue⟩
  cases hfind : configFind c key with
  | some idx =>
    rw [hfind] at hset
    obtain rfl := Option.some.inj hset
    obtain ⟨hidx, hsame⟩ := configFind_eq_some hfind
    have hmodify : c.modify idx (fun e => { e with value := value }) = c.set idx ⟨key, value⟩ := by
      rw [modify_eq_set_getElem?, getElem?_eq_getElem hidx]
      rw [← hsame]
      rfl
    rw [hmodify]
    refine ⟨⟨fun e he => ?_, ?_, ?_⟩, mem_set hidx _⟩
    · rcases mem_or_eq_of_mem_set he with he | rfl
      · exact hc.valid e he
      · exact hvalid
    · have hmap : (c.set idx ⟨key, value⟩).map ConfigEntry.key = c.map ConfigEntry.key := by
        rw [map_set]
        refine ext_getElem (length_set ..) fun i _ hi => ?_
        rw [getElem_set]
        split_ifs with heq
        · subst heq
          rw [getElem_map]
          exact hsame.symm
        · rfl
      rw [hmap]
      exact hc.keys
    · rw [length_set]
      exact hc.room
  | none =>
    rw [hfind] at hset
    split_ifs at hset with hfull
    obtain rfl := Option.some.inj hset
    refine ⟨⟨fun e he => ?_, ?_, ?_⟩, mem_append_right _ mem_cons_self⟩
    · rcases mem_append.mp he with he | he
      · exact hc.valid e he
      · rw [mem_singleton.mp he]
        exact hvalid
    · rw [map_append, map_singleton, nodup_append]
      refine ⟨hc.keys, nodup_singleton _, fun k hk k' hk' => ?_⟩
      obtain ⟨e, he, rfl⟩ := mem_map.mp hk
      rw [mem_singleton.mp hk']
      exact configFind_eq_none hfind e he
    · rw [length_append, length_singleton]
      exact Nat.lt_of_not_le hfull

theorem Built.proper (h : Built c) : Proper c := by
  induction h with
  | empty => exact ⟨nofun, nodup_nil, Nat.zero_le _⟩
  | set _ hkey hvalue hset ih => exact (configSet_spec ih hkey hvalue hset).1
  | setInt _ hkey hset ih => exact (configSet_spec ih hkey (itoa_noZero _ _) hset).1

/-! ## save and load -/

/-- the loaded table has as many entries, and each key has its value -/
structure Survived (c loaded : Config) : Prop where
  count : loaded.length = c.length
  values : ∀ key default, configGetStr loaded key default = configGetStr c key default

/-- the file can hold the table -/
structure Savable (c : Config) : Prop where
  fits : Fits c
  clean : ∀ e ∈ c, Clean e

theorem configGetStr_of_mem (hkeys : (c.map ConfigEntry.key).Nodup) (he : e ∈ c)
    (default : List UInt8) : configGetStr c e.key default = e.value := by
  obtain ⟨idx, hfind, hget⟩ := configFind_of_mem hkeys he
  unfold configGetStr
  rw [hfind]
  exact congrArg ConfigEntry.value hget

theorem configGetInt_of_mem (hkeys : (c.map ConfigEntry.key).Nodup) (he : e ∈ c) (default : Int32) :
    configGetInt c e.key default = simpleAtoi e.value := by
  obtain ⟨idx, hfind, hget⟩ := configFind_of_mem hkeys he
  unfold configGetInt
  rw [hfind]
  exact congrArg (fun e => simpleAtoi e.value) hget

theorem mem_of_configGetStr (h : ∀ default, configGetStr c key default = value) :
    ⟨key, value⟩ ∈ c := by
  cases hfind : configFind c key with
  | none =>
    have hdefault := h (0 :: value)
    unfold configGetStr at hdefault
    rw [hfind] at hdefault
    exact absurd (congrArg List.length hdefault) (Nat.succ_ne_self _)
  | some idx =>
    obtain ⟨hidx, rfl⟩ := configFind_eq_some hfind
    have hvalue := h []
    unfold configGetStr at hvalue
    rw [hfind] at hvalue
    dsimp only at hvalue
    rw [getD_eq_getElem _ _ hidx] at hvalue
    rw [← hvalue]
    exact getElem_mem hidx

theorem configSave_file {fs : SaveCalls} (h : (configSave fs c).1 = 0) :
    (configSave fs c).2 = some (configLines 0 c) := by
  unfold configSave at h ⊢
  by_cases hcreate : fs.create < 0
  · rw [if_pos hcreate] at h
    exact absurd h (Int.ne_of_lt hcreate)
  · rw [if_neg hcreate] at h ⊢
    by_cases hopened : fs.opened ≠ 0
    · rw [if_pos hopened] at h
      exact absurd h hopened
    · rw [if_neg hopened] at h ⊢
      by_cases hwrite : fs.write (configLines 0 c).length ≠ (configLines 0 c).length
      · rw [if_pos hwrite] at h
        exact absurd h (show (-1 : Int) ≠ 0 by decide)
      · rw [if_neg hwrite]

/-- **Save and load.** -/
theorem survived_iff (hc : Proper c) {fs : SaveCalls} (hsave : (configSave fs c).1 = 0) :
    Survived c (configLoad (configSave fs c).2) ↔ Savable c := by
  rw [configSave_file hsave]
  constructor
  · intro hs
    have hclean : ∀ e ∈ c, Clean e := by
      intro e he
      have hvalue (default : List UInt8) := (hs.values e.key default).trans
        (configGetStr_of_mem hc.keys he default)
      exact clean_of_parse (fun _ h => absurd h not_mem_nil) e (mem_of_configGetStr hvalue)
    have hload := configLoad_lines hc.valid hc.room fun e he =>
      hclean e ((savedEntries_start 0 c).subset he)
    have hcount := hs.count
    rw [hload] at hcount
    exact ⟨(savedEntries_eq_iff_fits c).mp ((savedEntries_start 0 c).eq_of_length hcount), hclean⟩
  · intro hs
    have hall := (savedEntries_eq_iff_fits c).mpr hs.fits
    have hload := configLoad_lines hc.valid hc.room (by rw [hall]; exact hs.clean)
    rw [hload, hall]
    exact ⟨rfl, fun _ _ => rfl⟩

theorem getInt_iff (hc : Proper c) {n : Int32} (hmem : ⟨key, simpleItoa n 16⟩ ∈ c) :
    (∀ default, configGetInt c key default = n) ↔ n ≠ Int32.minValue := by
  rw [← atoi_itoa_iff n]
  have hget (default : Int32) : configGetInt c key default = simpleAtoi (simpleItoa n 16) :=
    configGetInt_of_mem hc.keys hmem default
  constructor
  · intro h
    exact (hget 0).symm.trans (h 0)
  · intro h default
    exact (hget default).trans h

/-- **Main.** A table that the calls have built survives a save that returned 0 and a load exactly
when it is savable.  A number that has been set is returned exactly when it is not the least one, and
after the save and the load exactly then, if the table survives. -/
theorem config_survives_iff (hc : Built c) :
    (∀ fs, (configSave fs c).1 = 0 →
      (Survived c (configLoad (configSave fs c).2) ↔ Savable c)) ∧
    ∀ key n c', 0 ∉ key → configSetInt c key n = some c' →
      ((∀ default, configGetInt c' key default = n) ↔ n ≠ Int32.minValue) ∧
      ∀ fs, (configSave fs c').1 = 0 →
        (Survived c' (configLoad (configSave fs c').2) ∧
            (∀ default, configGetInt (configLoad (configSave fs c').2) key default = n) ↔
          Savable c' ∧ n ≠ Int32.minValue) := by
  refine ⟨fun fs hsave => survived_iff hc.proper hsave, fun key n c' hkey hset => ?_⟩
  obtain ⟨hc', hmem⟩ := configSet_spec hc.proper hkey (itoa_noZero n 16) hset
  refine ⟨getInt_iff hc' hmem, fun fs hsave => ?_⟩
  rw [survived_iff hc' hsave]
  refine and_congr_right fun hsavable => ?_
  have hall := (savedEntries_eq_iff_fits c').mpr hsavable.fits
  have hload := configLoad_lines hc'.valid hc'.room (by rw [hall]; exact hsavable.clean)
  rw [configSave_file hsave, hload, hall]
  exact getInt_iff hc' hmem

def savedWell : SaveCalls := ⟨1, 0, fun n => n, none⟩

/-- the table with "a" = "1", and the number 7 set for "b" -/
theorem config_survives_small :
    (Survived [⟨[0x61], [0x31]⟩] (configLoad (configSave savedWell [⟨[0x61], [0x31]⟩]).2) ↔
        Savable [⟨[0x61], [0x31]⟩]) ∧
      ((∀ default, configGetInt [⟨[0x61], [0x31]⟩, ⟨[0x62], [0x37]⟩] [0x62] default = 7) ↔
        (7 : Int32) ≠ Int32.minValue) := by
  have hbuilt : Built [⟨[0x61], [0x31]⟩] :=
    .set .empty (show 0 ∉ [0x61] by decide) (show 0 ∉ [0x31] by decide) rfl
  exact ⟨(config_survives_iff hbuilt).1 savedWell rfl,
    ((config_survives_iff hbuilt).2 [0x62] 7 _ (by decide) rfl).1⟩

/-- a value with a blank at its start is stored without it; and the least number is read as 0 -/
theorem blank_dropped :
    (Built [⟨[0x61], [0x20, 0x31]⟩] ∧
      (configSave savedWell [⟨[0x61], [0x20, 0x31]⟩]).1 = 0 ∧
      configGetStr [⟨[0x61], [0x20, 0x31]⟩] [0x61] [] = [0x20, 0x31] ∧
      configGetStr (configLoad (configSave savedWell [⟨[0x61], [0x20, 0x31]⟩]).2) [0x61] [] =
        [0x31]) ∧
    ∃ c, configSetInt [] [0x61] Int32.minValue = some c ∧ configGetInt c [0x61] 5 = 0 :=
  ⟨⟨.set .empty (show 0 ∉ [0x61] by decide) (show 0 ∉ [0x20, 0x31] by decide) rfl, by decide,
    by decide, by decide⟩, _, rfl, by decide⟩

end Fs
end EkKor
