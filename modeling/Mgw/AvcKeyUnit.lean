import Mgw.AvcKeyframe
import Mgw.AvcPacket

/-!
# Where the key frame of a packet begins

`mgw_avc_get_nal` of `codec-common.c` with the memory that may be read, so that a
read outside the packet leaves the search without a result. The search steps over
the first byte of the packet, and behind a start code over the first byte of the
unit; a start code of three bytes there is not seen.
-/

namespace Mgw.AvcKeyUnit

open AvcHeader (byteAt startCodeAt)
open AvcKeyframe (typeBehind not_code)
open AvcPacket (MGW_AVCC_HEADER_SIZE)
open ByteArea WordArithmetic

set_option autoImplicit false

/-- A byte, where it may be read. -/
abbrev Reads := Nat → Option UInt8

section Search

variable (reads : Reads)

/-- The inner `none` is the result `-1`. -/
def mgwAvcGetStartcodeLen (data : Nat) : Option (Option Nat) :=
  (reads data).bind fun first =>
    if first ≠ 0 then some none
    else
      (reads (data + 1)).bind fun second =>
        if second ≠ 0 then some none
        else
          (reads (data + 2)).bind fun third =>
            if third = 1 then some (some 3)
            else if third ≠ 0 then some none
            else
              (reads (data + 3)).bind fun fourth =>
                if fourth = 1 then some (some 4) else some none

/-- The rounds of the loop, with the size and the pointer it results in. -/
def getNalLoop (data size : Nat) (get_type : UInt8) :
    Nat → Nat → Option Nat → Option (Nat × Option Nat)
  | 0, _, nal => some (0, nal)
  | rounds + 1, p, nal =>
      (mgwAvcGetStartcodeLen reads (p + 1)).bind fun code =>
        match code with
        | none => getNalLoop data size get_type rounds (p + 1) nal
        | some start_code_len =>
            let next := p + 1 + start_code_len
            match nal with
            | some first => some (subSize (next - start_code_len) first, nal)
            | none =>
                (reads next).bind fun byte =>
                  if get_type = byte &&& 0x1f then
                    if get_type = 0x5 then some (subSize size (next - data), some next)
                    else getNalLoop data size get_type rounds next (some next)
                  else getNalLoop data size get_type rounds next none

def mgwAvcGetNal (data size : Nat) (get_type : UInt8) (max_check : Nat) :
    Option (Nat × Option Nat) :=
  if size = 0 then some (0, none)
  else
    let check_len := if max_check < size then max_check else size
    getNalLoop reads data size get_type check_len data none

def mgwAvcGetKeyframe (data size : Nat) : Option (Nat × Option Nat) :=
  mgwAvcGetNal reads data size 0x5 size

end Search

section Memory

variable {reads : Reads} {memory : Bytes}

/-- What may be read is in the memory. -/
def Shows (reads : Reads) (memory : Bytes) : Prop :=
  ∀ q byte, reads q = some byte → memory q = byte

theorem startcode_len_shown (shows : Shows reads memory) {data : Nat} {code : Option Nat}
    (result : mgwAvcGetStartcodeLen reads data = some code) :
    AvcPacket.mgwAvcGetStartcodeLen memory data = code := by
  obtain ⟨first, firstRead, result⟩ := Option.bind_eq_some_iff.mp result
  rw [AvcPacket.mgwAvcGetStartcodeLen, shows _ first firstRead]
  split_ifs at result with zero
  · rw [if_pos (Or.inl zero)]
    exact Option.some.inj result
  obtain ⟨second, secondRead, result⟩ := Option.bind_eq_some_iff.mp result
  rw [shows _ second secondRead]
  split_ifs at result with next
  · rw [if_pos (Or.inr next)]
    exact Option.some.inj result
  obtain ⟨third, thirdRead, result⟩ := Option.bind_eq_some_iff.mp result
  rw [shows _ third thirdRead, if_neg (not_or.mpr ⟨zero, next⟩)]
  split_ifs at result with one other
  · rw [if_pos one]
    exact Option.some.inj result
  · rw [if_neg one, if_neg fun both => other both.1]
    exact Option.some.inj result
  obtain ⟨fourth, fourthRead, result⟩ := Option.bind_eq_some_iff.mp result
  rw [shows _ fourth fourthRead, if_neg one]
  have nought : third = 0 := not_not.mp other
  split_ifs at result with last
  · rw [if_pos ⟨nought, last⟩]
    exact Option.some.inj result
  · rw [if_neg fun both => last both.2]
    exact Option.some.inj result

theorem get_nal_loop_shown (shows : Shows reads memory) {data size : Nat} {get_type : UInt8}
    (rounds p : Nat) (nal : Option Nat) {found : Nat × Option Nat}
    (result : getNalLoop reads data size get_type rounds p nal = some found) :
    AvcPacket.getNalLoop memory data size get_type rounds p nal = found := by
  induction rounds generalizing p nal with
  | zero => exact Option.some.inj result
  | succ rounds ih =>
      rw [getNalLoop] at result
      obtain ⟨code, read, result⟩ := Option.bind_eq_some_iff.mp result
      rw [AvcPacket.getNalLoop, startcode_len_shown shows read]
      cases code with
      | none => exact ih _ _ result
      | some start_code_len =>
          cases nal with
          | some first => exact Option.some.inj result
          | none =>
              obtain ⟨byte, byteRead, result⟩ := Option.bind_eq_some_iff.mp result
              dsimp only
              rw [shows _ byte byteRead]
              split_ifs at result ⊢
              · exact Option.some.inj result
              · exact ih _ _ result
              · exact ih _ _ result

/-- Where no byte outside is read, the search is that of the RTMP output. -/
theorem get_nal_shown (shows : Shows reads memory) {data size max_check : Nat} {get_type : UInt8}
    {found : Nat × Option Nat}
    (result : mgwAvcGetNal reads data size get_type max_check = some found) :
    AvcPacket.mgwAvcGetNal memory data size get_type max_check = found := by
  unfold mgwAvcGetNal at result
  unfold AvcPacket.mgwAvcGetNal
  split_ifs at result ⊢
  · exact Option.some.inj result
  · exact get_nal_loop_shown shows _ _ _ result
  · exact get_nal_loop_shown shows _ _ _ result

end Memory

/-- The bytes of the string and no others may be read. -/
def stringReads (bytes : List UInt8) (address : Nat) : Reads :=
  fun q => if address ≤ q then bytes[q - address]? else none

/-- The first start code of the string with a unit of type 5 behind it. A start code of
four bytes is one of three bytes behind a zero byte. -/
structure FirstKey (bytes : List UInt8) (code : Nat) : Prop where
  inside : code + 3 < bytes.length
  begins : startCodeAt bytes code = true
  key : typeBehind bytes code = 0x5
  earlier : ∀ other < code, startCodeAt bytes other = true → typeBehind bytes other ≠ 0x5

/-- The start codes in an unbroken row in front of a place, without one at the beginning
of the string. -/
def rowBefore (bytes : List UInt8) : Nat → Nat
  | place + 4 => if startCodeAt bytes (place + 1) then rowBefore bytes (place + 1) + 1 else 0
  | _ => 0

/-- The packet lies behind the spare bytes of `buffer`. The search reads only the packet;
the result is the unit of the first key, or 0, and the four bytes in front of a unit are
in the buffer. -/
def LocatesKeyframe (bytes : List UInt8) (buffer : Nat) : Prop :=
  let data := buffer + MGW_AVCC_HEADER_SIZE
  ∃ size keyframe, mgwAvcGetKeyframe (stringReads bytes data) data bytes.length =
      some (size, keyframe) ∧
    (∀ code, FirstKey bytes code →
      keyframe = some (data + code + 3) ∧ size = bytes.length - (code + 3) ∧
        buffer + 4 ≤ data + code + 3 ∧ data + code + 3 ≤ data + bytes.length) ∧
    ((∀ code, ¬FirstKey bytes code) → size = 0)

section Strings

variable {bytes : List UInt8} {address p : Nat}

theorem string_read (inside : p < bytes.length) :
    stringReads bytes address (address + p) = some (byteAt bytes p) := by
  unfold stringReads byteAt
  rw [if_pos (Nat.le_add_right _ _), Nat.add_sub_cancel_left, List.getD_eq_getElem?_getD,
    List.getElem?_eq_getElem inside, Option.getD_some]

theorem read_inside {byte : UInt8} (read : stringReads bytes address (address + p) = some byte) :
    p < bytes.length ∧ byteAt bytes p = byte := by
  have inside : p < bytes.length := by
    unfold stringReads at read
    rw [if_pos (Nat.le_add_right _ _), Nat.add_sub_cancel_left] at read
    exact (List.getElem?_eq_some_iff.mp read).1
  rw [string_read inside] at read
  exact ⟨inside, Option.some.inj read⟩

/-- A start code of three bytes, or of four bytes whose last three are one. -/
def Finds (bytes : List UInt8) (p : Nat) : Option Nat → Prop
  | none => startCodeAt bytes p = false
  | some length =>
      (length = 3 ∧ startCodeAt bytes p = true) ∨
        (length = 4 ∧ startCodeAt bytes p = false ∧ startCodeAt bytes (p + 1) = true)

theorem code_here (first : byteAt bytes p = 0) (second : byteAt bytes (p + 1) = 0) :
    startCodeAt bytes p = decide (byteAt bytes (p + 2) = 1) := by
  simp [startCodeAt, first, second]

theorem probe_sound {code : Option Nat}
    (result : mgwAvcGetStartcodeLen (stringReads bytes address) (address + p) = some code) :
    p < bytes.length ∧ Finds bytes p code := by
  obtain ⟨first, read, result⟩ := Option.bind_eq_some_iff.mp result
  obtain ⟨inside, zeroth⟩ := read_inside read
  refine ⟨inside, ?_⟩
  split_ifs at result with other
  · rw [← Option.some.inj result]
    exact not_code (Or.inl (by rwa [zeroth]))
  have zero : byteAt bytes p = 0 := zeroth.trans (not_not.mp other)
  obtain ⟨second, read, result⟩ := Option.bind_eq_some_iff.mp result
  rw [Nat.add_assoc] at read
  obtain ⟨-, next⟩ := read_inside read
  split_ifs at result with other'
  · rw [← Option.some.inj result]
    exact not_code (Or.inr (by rwa [next]))
  have zero' : byteAt bytes (p + 1) = 0 := next.trans (not_not.mp other')
  obtain ⟨third, read, result⟩ := Option.bind_eq_some_iff.mp result
  rw [Nat.add_assoc] at read
  obtain ⟨-, behind⟩ := read_inside read
  have here := code_here zero zero'
  rw [behind] at here
  split_ifs at result with one nought
  · rw [← Option.some.inj result]
    exact Or.inl ⟨rfl, here.trans (decide_eq_true one)⟩
  · rw [← Option.some.inj result]
    exact here.trans (decide_eq_false one)
  obtain ⟨fourth, read, result⟩ := Option.bind_eq_some_iff.mp result
  rw [Nat.add_assoc] at read
  obtain ⟨-, last⟩ := read_inside read
  have later := code_here zero' (behind.trans (not_not.mp nought))
  rw [last] at later
  split_ifs at result with one'
  · rw [← Option.some.inj result]
    exact Or.inr ⟨rfl, here.trans (decide_eq_false one), later.trans (decide_eq_true one')⟩
  · rw [← Option.some.inj result]
    exact here.trans (decide_eq_false one)

/-- The four bytes that are looked at lie in the string. -/
theorem probe_inside (inside : p + 3 < bytes.length) :
    ∃ code, mgwAvcGetStartcodeLen (stringReads bytes address) (address + p) = some code := by
  unfold mgwAvcGetStartcodeLen
  rw [string_read (by omega), Nat.add_assoc, string_read (by omega), Nat.add_assoc,
    string_read (by omega), Nat.add_assoc, string_read inside]
  simp only [Option.bind_some]
  split_ifs
  all_goals exact ⟨_, rfl⟩

end Strings

section Rows

variable {bytes : List UInt8} {q : Nat}

theorem row_behind {place : Nat} (positive : 1 ≤ place) :
    rowBefore bytes (place + 3) =
      if startCodeAt bytes place then rowBefore bytes place + 1 else 0 := by
  obtain ⟨before, rfl⟩ := Nat.exists_eq_add_of_le' positive
  rfl

/-- The search stands at `q` and has not seen those of the start codes just before it that
are left. -/
def Clean (bytes : List UInt8) (q : Nat) : Prop :=
  ∀ place, 1 ≤ place → place < q → q ≤ place + 3 → startCodeAt bytes place = true →
    rowBefore bytes place % 2 = 1

theorem clean_even (clean : Clean bytes q) (positive : 1 ≤ q) : rowBefore bytes q % 2 = 0 := by
  by_cases far : 4 ≤ q
  · obtain ⟨place, rfl⟩ := Nat.exists_eq_add_of_le' (show 3 ≤ q by omega)
    rw [row_behind (by omega)]
    split_ifs with code
    · have odd := clean place (by omega) (by omega) (by omega) code
      omega
    · rfl
  · obtain rfl | rfl | rfl : q = 1 ∨ q = 2 ∨ q = 3 := by omega
    all_goals rfl

theorem clean_next (clean : Clean bytes q) (nothing : startCodeAt bytes q = false) :
    Clean bytes (q + 1) := by
  intro place positive before near code
  by_cases same : place = q
  · rw [same, nothing] at code
    contradiction
  · exact clean place positive (by omega) (by omega) code

/-- The last byte of a start code is not zero. -/
theorem code_apart (code : startCodeAt bytes q = true) :
    startCodeAt bytes (q + 1) = false ∧ startCodeAt bytes (q + 2) = false := by
  obtain ⟨-, -, third⟩ := (AvcHeader.start_code_at_iff q).mp code
  have one : byteAt bytes (q + 2) ≠ 0 := by
    rw [third]
    decide
  exact ⟨not_code (Or.inr one), not_code (Or.inl one)⟩

theorem clean_behind (clean : Clean bytes q) (positive : 1 ≤ q)
    (code : startCodeAt bytes q = true) : Clean bytes (q + 4) := by
  obtain ⟨second, third⟩ := code_apart code
  intro place positive' before near code'
  obtain rfl | rfl | rfl : place = q + 1 ∨ place = q + 2 ∨ place = q + 3 := by omega
  · rw [second] at code'
    contradiction
  · rw [third] at code'
    contradiction
  · have even := clean_even clean positive
    rw [row_behind positive, if_pos code]
    omega

/-- The first start code from `q` on is found, with an even row in front of it, and the
search goes on behind the first byte of its unit. -/
theorem finds_code (clean : Clean bytes q) (positive : 1 ≤ q) {length : Nat}
    (finds : Finds bytes q (some length)) :
    ∃ code, q ≤ code ∧ code + 3 = q + length ∧ startCodeAt bytes code = true ∧
      (∀ other, q ≤ other → other < code → startCodeAt bytes other = false) ∧
      rowBefore bytes code % 2 = 0 ∧ Clean bytes (code + 4) := by
  rcases finds with ⟨rfl, code⟩ | ⟨rfl, nothing, code⟩
  · exact ⟨q, Nat.le_refl q, rfl, code, fun other above below => absurd above (by omega),
      clean_even clean positive, clean_behind clean positive code⟩
  · have next := clean_next clean nothing
    refine ⟨q + 1, Nat.le_succ q, rfl, code, ?_, clean_even next (Nat.succ_pos q),
      clean_behind next (Nat.succ_pos q) code⟩
    intro other above below
    rwa [show other = q by omega]

/-- Of two start codes with even rows one does not stand directly behind the other. -/
theorem even_apart {code : Nat} (positive : 1 ≤ q) (begins : startCodeAt bytes q = true)
    (begins' : startCodeAt bytes code = true) (ordered : q < code)
    (even : rowBefore bytes q % 2 = 0) (even' : rowBefore bytes code % 2 = 0) : q + 3 < code := by
  obtain ⟨second, third⟩ := code_apart begins
  by_contra near
  obtain rfl | rfl | rfl : code = q + 1 ∨ code = q + 2 ∨ code = q + 3 := by omega
  · rw [second] at begins'
    contradiction
  · rw [third] at begins'
    contradiction
  · rw [row_behind positive, if_pos begins] at even'
    omega

end Rows

section Loop

variable {bytes : List UInt8} {address : Nat}

theorem string_outside {p : Nat} (outside : bytes.length ≤ p) :
    stringReads bytes address (address + p) = none := by
  cases read : stringReads bytes address (address + p) with
  | none => rfl
  | some byte => exact absurd (read_inside read).1 (Nat.not_lt.mpr outside)

/-- A round that finds a start code looks at the unit behind it. -/
theorem loop_code (rounds : Nat) {p length code : Nat}
    (probe : mgwAvcGetStartcodeLen (stringReads bytes address) (address + p + 1) =
      some (some length))
    (unit : code + 3 = p + 1 + length) :
    getNalLoop (stringReads bytes address) address bytes.length 0x5 (rounds + 1) (address + p)
        none =
      if code + 3 < bytes.length then
        if typeBehind bytes code = 0x5 then
          some (subSize bytes.length (code + 3), some (address + (code + 3)))
        else
          getNalLoop (stringReads bytes address) address bytes.length 0x5 rounds
            (address + (code + 3)) none
      else none := by
  have place : address + p + 1 + length = address + (code + 3) := by omega
  rw [getNalLoop, probe, Option.bind_some]
  dsimp only
  rw [place]
  by_cases inside : code + 3 < bytes.length
  · rw [if_pos inside, string_read inside, Option.bind_some, Nat.add_sub_cancel_left]
    change (if 0x5 = typeBehind bytes code then _ else _) = _
    by_cases key : typeBehind bytes code = 0x5
    · rw [if_pos key, if_pos key.symm, if_pos rfl]
    · rw [if_neg key, if_neg fun same => key same.symm]
  · rw [if_neg inside, string_outside (Nat.not_lt.mp inside), Option.bind_none]

/-- What is found is a unit of type 5 behind a start code that the search sees. -/
theorem loop_sound (rounds p : Nat) (inside : p < bytes.length)
    (enough : bytes.length ≤ p + rounds) (clean : Clean bytes (p + 1)) {found : Nat × Option Nat}
    (result : getNalLoop (stringReads bytes address) address bytes.length 0x5 rounds (address + p)
      none = some found) :
    ∃ code, 1 ≤ code ∧ code + 3 < bytes.length ∧ startCodeAt bytes code = true ∧
      typeBehind bytes code = 0x5 ∧ rowBefore bytes code % 2 = 0 ∧
      found = (subSize bytes.length (code + 3), some (address + (code + 3))) := by
  induction rounds generalizing p with
  | zero => omega
  | succ rounds ih =>
      obtain ⟨read, probe, -⟩ := Option.bind_eq_some_iff.mp result
      obtain ⟨before, finds⟩ := @probe_sound bytes address (p + 1) read probe
      cases read with
      | none =>
          rw [getNalLoop, probe, Option.bind_some] at result
          exact ih (p + 1) before (by omega) (clean_next clean finds) result
      | some length =>
          obtain ⟨code, above, unit, begins, -, even, behind⟩ :=
            finds_code clean (Nat.succ_pos p) finds
          rw [loop_code rounds probe unit] at result
          split_ifs at result with within key
          · exact ⟨code, by omega, within, begins, key, even, (Option.some.inj result).symm⟩
          · exact ih (code + 3) within (by omega) behind result

/-- The first key is found where the search sees it. -/
theorem loop_finds (rounds p : Nat) (clean : Clean bytes (p + 1)) {code : Nat}
    (first : FirstKey bytes code) (even : rowBefore bytes code % 2 = 0) (ahead : p < code)
    (enough : code ≤ p + rounds) :
    getNalLoop (stringReads bytes address) address bytes.length 0x5 rounds (address + p) none =
      some (subSize bytes.length (code + 3), some (address + (code + 3))) := by
  have inside := first.inside
  induction rounds generalizing p with
  | zero => omega
  | succ rounds ih =>
      obtain ⟨read, probe⟩ := @probe_inside bytes address (p + 1) (by omega)
      obtain ⟨-, finds⟩ := probe_sound probe
      cases read with
      | none =>
          have further : p + 1 ≠ code := by
            intro same
            rw [Finds, same, first.begins] at finds
            contradiction
          rw [getNalLoop, Nat.add_assoc, probe, Option.bind_some]
          exact ih (p + 1) (clean_next clean finds) (by omega) (by omega)
      | some length =>
          obtain ⟨seen, above, unit, begins, before, seenEven, behind⟩ :=
            finds_code clean (Nat.succ_pos p) finds
          have reached : seen ≤ code := by
            by_contra past
            have nothing := before code ahead (Nat.not_le.mp past)
            rw [first.begins] at nothing
            contradiction
          rw [loop_code rounds probe unit, if_pos (by omega)]
          rcases Nat.eq_or_lt_of_le reached with same | earlier
          · rw [same, if_pos first.key]
          · rw [if_neg (first.earlier seen earlier begins)]
            apply ih (seen + 3) behind
            · exact even_apart (by omega) begins first.begins earlier seenEven even
            · omega

/-- The first of the start codes with a unit of type 5 behind them. -/
theorem first_key_exists {code : Nat} (inside : code + 3 < bytes.length)
    (begins : startCodeAt bytes code = true) (key : typeBehind bytes code = 0x5) :
    ∃ first, FirstKey bytes first := by
  have exists_key : ∃ code, startCodeAt bytes code = true ∧ typeBehind bytes code = 0x5 :=
    ⟨code, begins, key⟩
  have least := Nat.find_min' exists_key ⟨begins, key⟩
  obtain ⟨found, foundKey⟩ := Nat.find_spec exists_key
  refine ⟨Nat.find exists_key, by omega, found, foundKey, ?_⟩
  intro other before begins' key'
  exact Nat.find_min exists_key before ⟨begins', key'⟩

theorem first_key_unique {code other : Nat} (first : FirstKey bytes code)
    (first' : FirstKey bytes other) : code = other := by
  rcases Nat.lt_trichotomy code other with before | same | behind
  · exact absurd first.key (first'.earlier code before first.begins)
  · exact same
  · exact absurd first'.key (first.earlier other behind first'.begins)

theorem get_keyframe_loop (nonempty : bytes ≠ []) :
    mgwAvcGetKeyframe (stringReads bytes address) address bytes.length =
      getNalLoop (stringReads bytes address) address bytes.length 0x5 bytes.length (address + 0)
        none := by
  have positive : bytes.length ≠ 0 := by simpa using nonempty
  unfold mgwAvcGetKeyframe mgwAvcGetNal
  rw [if_neg positive, if_neg (Nat.lt_irrefl _)]
  rfl

theorem clean_start : Clean bytes 1 := by
  intro place positive before
  omega

/-- The search reads only the packet and finds the first key if and only if the packet is
empty, or it has a key whose start code is not at its beginning and not the second, the
fourth and so on of a row. -/
theorem locates_keyframe_iff (bytes : List UInt8) (buffer : Nat)
    (fits : bytes.length < sizeRange) :
    LocatesKeyframe bytes buffer ↔
      bytes = [] ∨ ∃ code, FirstKey bytes code ∧ code ≠ 0 ∧ rowBefore bytes code % 2 = 0 := by
  constructor
  · intro locates
    obtain ⟨size, keyframe, result, found, -⟩ := locates
    by_cases empty : bytes = []
    · exact Or.inl empty
    · have positive : 0 < bytes.length := List.length_pos_of_ne_nil empty
      rw [get_keyframe_loop empty] at result
      obtain ⟨code, later, inside, begins, key, even, same⟩ :=
        loop_sound _ 0 positive (by omega) clean_start result
      obtain ⟨first, firstKey⟩ := first_key_exists inside begins key
      have place := (found first firstKey).1
      rw [(Prod.mk.inj same).2] at place
      have equal : first = code := by
        have addresses := Option.some.inj place
        omega
      rw [equal] at firstKey
      exact Or.inr ⟨code, firstKey, by omega, even⟩
  · intro condition
    rcases condition with empty | ⟨code, first, later, even⟩
    · rw [empty]
      refine ⟨0, none, rfl, ?_, fun _ => rfl⟩
      intro code first
      exact absurd first.inside (Nat.not_lt_zero _)
    · have inside := first.inside
      have nonempty : bytes ≠ [] := by
        intro empty
        rw [empty] at inside
        exact Nat.not_lt_zero _ inside
      have result := @loop_finds bytes (buffer + MGW_AVCC_HEADER_SIZE) bytes.length 0 clean_start
        code first even (by omega) (by omega)
      rw [← get_keyframe_loop nonempty] at result
      refine ⟨_, _, result, ?_, fun none => absurd first (none code)⟩
      intro other first'
      rw [← first_key_unique first first']
      refine ⟨rfl, sub_size_of_le (by omega) fits, ?_, by omega⟩
      rw [MGW_AVCC_HEADER_SIZE]
      omega

/-- A key frame behind an access unit delimiter. -/
theorem locates_keyframe_iff_delimited :
    LocatesKeyframe [0, 0, 0, 1, 0x09, 0x10, 0, 0, 1, 0x65, 0x88] 0 ↔
      ([0, 0, 0, 1, 0x09, 0x10, 0, 0, 1, 0x65, 0x88] : List UInt8) = [] ∨
        ∃ code, FirstKey [0, 0, 0, 1, 0x09, 0x10, 0, 0, 1, 0x65, 0x88] code ∧ code ≠ 0 ∧
          rowBefore [0, 0, 0, 1, 0x09, 0x10, 0, 0, 1, 0x65, 0x88] code % 2 = 0 :=
  locates_keyframe_iff _ 0 (by decide)

/-- A key frame behind a start code of three bytes is missed, and bytes behind the packet are
read; so are they for a packet without a key frame. -/
theorem short_code_not_located :
    FirstKey [0, 0, 1, 0x65, 0x88] 0 ∧
      mgwAvcGetKeyframe (stringReads [0, 0, 1, 0x65, 0x88] 4) 4 5 = none ∧
      ¬LocatesKeyframe [0, 0, 1, 0x65, 0x88] 0 ∧ ¬LocatesKeyframe [0, 0, 0, 1, 0x41, 0x9a] 0 := by
  have outside : mgwAvcGetKeyframe (stringReads [0, 0, 1, 0x65, 0x88] 4) 4 5 = none := by decide
  have outside' : mgwAvcGetKeyframe (stringReads [0, 0, 0, 1, 0x41, 0x9a] 4) 4 6 = none := by decide
  refine ⟨⟨by decide, by decide, by decide, by decide⟩, outside, ?_, ?_⟩
  · intro locates
    obtain ⟨size, keyframe, result, -⟩ := locates
    exact Option.some_ne_none _ (result.symm.trans outside)
  · intro locates
    obtain ⟨size, keyframe, result, -⟩ := locates
    exact Option.some_ne_none _ (result.symm.trans outside')

end Loop

end Mgw.AvcKeyUnit
