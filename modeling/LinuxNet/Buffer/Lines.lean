import LinuxNet.Lib.Search
import LinuxNet.Buffer.Fifo

/-!
# Lines

`FindCRLF` looks for the end of a line in the readable bytes, from `Peek()` or from a given
position on. A reader takes what stands in front of the pair with `RetrieveUntil`, and keeps what
is left for the bytes that are still to come.

A search that has found nothing in the bytes `c` is resumed at the last byte of `c`: the pair may
be split between `c` and what follows. The lines are those of the whole stream, whatever the cuts.
-/

namespace LinuxNet

set_option autoImplicit false

open LinuxNet.Lib LinuxNet.Lib.Window LinuxNet.Lib.Search

namespace Buffer

def kCRLF : List UInt8 := [13, 10]

/-- `std::search(first, last, kCRLF, kCRLF+2)`: `last` if there is no pair. -/
def searchCRLF (b : Buffer) (first last : Nat) : Nat :=
  ((search kCRLF (window b.buffer first last)).map (first + ·)).getD last

/-- `FindCRLF()`. -/
def findCRLF (b : Buffer) : Option Nat :=
  let crlf := b.searchCRLF b.peek b.beginWrite
  if crlf = b.beginWrite then none else some crlf

/-- `FindCRLF(start)`. -/
def findCRLFFrom (b : Buffer) (start : Nat) : Option Nat :=
  if start ≥ b.beginWrite then none
  else
    let crlf := b.searchCRLF start b.beginWrite
    if crlf = b.beginWrite then none else some crlf

/-- The pair is at the position, inside of the readable bytes. -/
def CRLFAt (b : Buffer) (p : Nat) : Prop :=
  b.peek ≤ p ∧ p + 2 ≤ b.beginWrite ∧ b.buffer[p]? = some 13 ∧ b.buffer[p + 1]? = some 10

end Buffer

/-- A reader of lines: the buffer, how far behind `Peek()` the next search may begin, and the lines
taken so far. -/
structure LineReader where
  input : Buffer
  searched : Nat
  lines : List (List UInt8)
  deriving DecidableEq, Repr

namespace LineReader

/-- What happens to a reader: bytes are appended, or it looks for a line, with `FindCRLF()` or
with `FindCRLF(start)`. -/
inductive Op where
  | append (dat : List UInt8)
  | find (resumed : Bool)
  deriving DecidableEq, Repr

def new : LineReader := ⟨.new, 0, []⟩

/-- The position of the pair, if there is one. -/
def findCRLF (r : LineReader) (resumed : Bool) : Option Nat :=
  if resumed then r.input.findCRLFFrom (r.input.peek + r.searched) else r.input.findCRLF

/-- Take the line in front of the pair, and drop the pair. -/
def take (r : LineReader) (crlf : Nat) : LineReader :=
  { input := r.input.retrieveUntil (crlf + 2)
    searched := 0
    lines := r.lines ++ [window r.input.buffer r.input.peek crlf] }

/-- Nothing found: the next search may begin at the last byte, or at `Peek()` if there is none. -/
def wait (r : LineReader) : LineReader := { r with searched := r.input.readableBytes - 1 }

def step (r : LineReader) : Op → LineReader
  | .append dat => { r with input := r.input.append dat }
  | .find resumed => (r.findCRLF resumed).elim r.wait r.take

def run (ops : List Op) : LineReader := ops.foldl step new

/-- The bytes that are appended. -/
def Op.bytes : Op → List UInt8
  | .append dat => dat
  | .find _ => []

def stream (ops : List Op) : List UInt8 := ops.flatMap Op.bytes

end LineReader

/-! ## The two searches -/

namespace Buffer

theorem kCRLF_ne_nil : kCRLF ≠ [] := by decide

/-- The search stops before the end of the range if and only if it finds the pair. -/
theorem searchCRLF_eq {b : Buffer} {first : Nat} (hb : b.beginWrite ≤ b.buffer.length) :
    (if b.searchCRLF first b.beginWrite = b.beginWrite then none
      else some (b.searchCRLF first b.beginWrite)) =
    (search kCRLF (window b.buffer first b.beginWrite)).map (first + ·) := by
  unfold searchCRLF
  cases hs : search kCRLF (window b.buffer first b.beginWrite) with
  | none => simp
  | some i =>
    have hlen := (search_eq_some_iff.mp hs).1.length_le
    have hpair : kCRLF.length = 2 := rfl
    rw [length_window, Nat.min_eq_left hb, hpair] at hlen
    have hne : first + i ≠ b.beginWrite := by omega
    simp [hne]

theorem findCRLF_eq {b : Buffer} (h : b.Inv) :
    b.findCRLF = (search kCRLF b.contents).map (b.peek + ·) :=
  searchCRLF_eq h.bounded

theorem findCRLFFrom_eq {b : Buffer} (h : b.Inv) (k : Nat) :
    b.findCRLFFrom (b.peek + k) =
      (search kCRLF (b.contents.drop k)).map (fun i => b.peek + (k + i)) := by
  have hdrop : b.contents.drop k = window b.buffer (b.peek + k) b.beginWrite :=
    drop_window b.buffer b.readIndex b.writeIndex k
  have hfun : (fun i => b.peek + (k + i)) = fun i => b.peek + k + i := by
    funext i
    omega
  unfold findCRLFFrom
  rw [hdrop, hfun]
  split
  · rename_i hstart
    have hempty : window b.buffer (b.peek + k) b.beginWrite = [] := by
      apply List.eq_nil_of_length_eq_zero
      rw [length_window]
      omega
    rw [hempty]
    rfl
  · exact searchCRLF_eq h.bounded

theorem kCRLF_prefix_iff (text : List UInt8) :
    kCRLF <+: text ↔ text[0]? = some 13 ∧ text[1]? = some 10 := by
  cases text with
  | nil => simp [kCRLF]
  | cons x text =>
    cases text with
    | nil => simp [kCRLF, List.cons_prefix_cons]
    | cons y text => simp [kCRLF, List.cons_prefix_cons, eq_comm]

/-- An occurrence in the readable bytes is a pair of the buffer. -/
theorem occursAt_contents_iff {b : Buffer} (h : b.Inv) (i : Nat) :
    OccursAt kCRLF b.contents i ↔ b.CRLFAt (b.peek + i) := by
  have hord := h.ordered
  have hbnd := h.bounded
  have hdrop : b.contents.drop i = window b.buffer (b.peek + i) b.beginWrite :=
    drop_window b.buffer b.readIndex b.writeIndex i
  have hread (k : Nat) (hk : b.peek + i + k < b.beginWrite) :
      (b.contents.drop i)[k]? = b.buffer[b.peek + i + k]? := by
    rw [hdrop, getElem?_window b.buffer hk]
  constructor
  · intro hocc
    have hlen := hocc.length_le
    have hpair : kCRLF.length = 2 := rfl
    have hfit : b.peek + i + 2 ≤ b.beginWrite := by
      rw [h.length_contents, readableBytes, hpair] at hlen
      simp only [peek, beginWrite]
      omega
    rw [OccursAt, kCRLF_prefix_iff, hread 0 (by omega), hread 1 (by omega)] at hocc
    exact ⟨Nat.le_add_right _ _, hfit, hocc⟩
  · rintro ⟨-, hfit, hpair⟩
    rw [OccursAt, kCRLF_prefix_iff, hread 0 (by omega), hread 1 (by omega)]
    exact hpair

/-- `FindCRLF()` finds the first pair. -/
theorem findCRLF_eq_some_iff {b : Buffer} (h : b.Inv) (p : Nat) :
    b.findCRLF = some p ↔ b.CRLFAt p ∧ ∀ q < p, ¬ b.CRLFAt q := by
  rw [findCRLF_eq h, Option.map_eq_some_iff]
  constructor
  · rintro ⟨i, hi, rfl⟩
    obtain ⟨hocc, hfirst⟩ := search_eq_some_iff.mp hi
    refine ⟨(occursAt_contents_iff h i).mp hocc, fun q hq hat => ?_⟩
    have hle : b.peek ≤ q := hat.1
    apply hfirst (q - b.peek) (by omega)
    rw [occursAt_contents_iff h, Nat.add_sub_cancel' hle]
    exact hat
  · rintro ⟨hat, hfirst⟩
    have hle : b.peek ≤ p := hat.1
    have hp : b.peek + (p - b.peek) = p := Nat.add_sub_cancel' hle
    refine ⟨p - b.peek, search_eq_some_iff.mpr ⟨?_, fun j hj hocc => ?_⟩, hp⟩
    · rw [occursAt_contents_iff h, hp]
      exact hat
    · exact hfirst (b.peek + j) (by omega) ((occursAt_contents_iff h j).mp hocc)

theorem findCRLF_eq_none_iff {b : Buffer} (h : b.Inv) :
    b.findCRLF = none ↔ ∀ p, ¬ b.CRLFAt p := by
  rw [findCRLF_eq h, Option.map_eq_none_iff, search_eq_none_iff]
  constructor
  · intro hnone p hat
    have hle : b.peek ≤ p := hat.1
    apply hnone (p - b.peek)
    rw [occursAt_contents_iff h, Nat.add_sub_cancel' hle]
    exact hat
  · intro hnone i hocc
    exact hnone _ ((occursAt_contents_iff h i).mp hocc)

/-- After a search without a result, `FindCRLF(start)` with `start` at the last byte of what was
searched agrees with `FindCRLF()` on what there is then. -/
theorem findCRLFFrom_append {b : Buffer} (h : b.Inv) (hnone : b.findCRLF = none)
    (dat : List UInt8) :
    (b.append dat).findCRLFFrom ((b.append dat).peek + (b.readableBytes - 1)) =
      (b.append dat).findCRLF := by
  obtain ⟨hi, hc⟩ := append_spec h dat
  have hlen := h.length_contents
  have hpair : kCRLF.length = 2 := rfl
  rw [findCRLF_eq h, Option.map_eq_none_iff] at hnone
  rw [findCRLF_eq hi, findCRLFFrom_eq hi, hc,
    search_resume hnone (k := b.readableBytes - 1) (by omega), Option.map_map]
  rfl

end Buffer

/-! ## The lines of a stream -/

namespace LineReader

open Buffer

/-- The reader after the bytes `seen`: where it does not look again there is no pair, and whatever
comes, the lines of the stream are the lines taken and those of the readable bytes. -/
structure Follows (r : LineReader) (seen : List UInt8) : Prop where
  inv : r.input.Inv
  searched : ∀ j < r.searched,
    j + kCRLF.length ≤ r.input.contents.length ∧ ¬ OccursAt kCRLF r.input.contents j
  pieces : ∀ more pieces rest, Pieces kCRLF (r.input.contents ++ more) pieces rest →
    Pieces kCRLF (seen ++ more) (r.lines ++ pieces) rest

variable {r : LineReader} {seen : List UInt8}

theorem follows_new : new.Follows [] := by
  refine ⟨inv_new, fun j hj => absurd hj (Nat.not_lt_zero j), ?_⟩
  intro more pieces rest h
  have hc : new.input.contents = [] := contents_new
  rw [hc] at h
  exact h

/-- Both ways of searching find the first pair of the readable bytes. -/
theorem Follows.findCRLF_eq (h : r.Follows seen) (resumed : Bool) :
    r.findCRLF resumed = (search kCRLF r.input.contents).map (r.input.peek + ·) := by
  cases resumed with
  | false => exact Buffer.findCRLF_eq h.inv
  | true =>
    have hdrop := search_drop fun j hj => (h.searched j hj).2
    show r.input.findCRLFFrom (r.input.peek + r.searched) = _
    rw [findCRLFFrom_eq h.inv, hdrop, Option.map_map]
    rfl

theorem Follows.append (h : r.Follows seen) (dat : List UInt8) :
    (r.step (.append dat)).Follows (seen ++ dat) := by
  obtain ⟨hi, hc⟩ := append_spec h.inv dat
  refine ⟨hi, ?_, ?_⟩
  · intro j hj
    obtain ⟨hfit, hnot⟩ := h.searched j hj
    show j + kCRLF.length ≤ (r.input.append dat).contents.length ∧
      ¬ OccursAt kCRLF (r.input.append dat).contents j
    rw [hc, occursAt_append hfit, List.length_append]
    exact ⟨by omega, hnot⟩
  · intro more pieces rest hp
    have hp' : Pieces kCRLF (r.input.contents ++ (dat ++ more)) pieces rest := by
      rw [← List.append_assoc, ← hc]
      exact hp
    rw [List.append_assoc]
    exact h.pieces _ _ _ hp'

/-- Nothing found: every position where a pair ends in the readable bytes has been looked at. -/
theorem Follows.wait (h : r.Follows seen) (hs : search kCRLF r.input.contents = none) :
    r.wait.Follows seen := by
  refine ⟨h.inv, ?_, h.pieces⟩
  intro j hj
  have hpair : kCRLF.length = 2 := rfl
  have hlt : j < r.input.readableBytes - 1 := hj
  refine ⟨?_, search_eq_none_iff.mp hs j⟩
  show j + kCRLF.length ≤ r.input.contents.length
  rw [h.inv.length_contents]
  omega

theorem Follows.take (h : r.Follows seen) {i : Nat} (hs : search kCRLF r.input.contents = some i) :
    (r.take (r.input.peek + i)).Follows seen := by
  have hlen := (search_eq_some_iff.mp hs).1.length_le
  have hpair : kCRLF.length = 2 := rfl
  rw [h.inv.length_contents] at hlen
  have hfit : i + 2 ≤ r.input.readableBytes := by omega
  obtain ⟨hi, hc⟩ := retrieve_spec h.inv hfit
  have hinput : (r.take (r.input.peek + i)).input = r.input.retrieve (i + 2) :=
    retrieveUntil_eq h.inv hfit
  have hline : window r.input.buffer r.input.peek (r.input.peek + i) = r.input.contents.take i :=
    window_peek h.inv (by omega)
  refine ⟨hinput ▸ hi, fun j hj => absurd hj (Nat.not_lt_zero j), ?_⟩
  intro more pieces rest hp
  rw [hinput, hc] at hp
  have hstream := h.pieces _ _ _ (Pieces.piece_append kCRLF_ne_nil hs hp)
  show Pieces kCRLF (seen ++ more)
    (r.lines ++ [window r.input.buffer r.input.peek (r.input.peek + i)] ++ pieces) rest
  rw [hline, List.append_assoc]
  exact hstream

theorem Follows.step (h : r.Follows seen) (op : Op) : (r.step op).Follows (seen ++ op.bytes) := by
  cases op with
  | append dat => exact h.append dat
  | find resumed =>
    show ((r.findCRLF resumed).elim r.wait r.take).Follows (seen ++ [])
    rw [h.findCRLF_eq resumed, List.append_nil]
    cases hs : search kCRLF r.input.contents with
    | none => exact h.wait hs
    | some i => exact h.take hs

theorem follows_foldl (h : r.Follows seen) (ops : List Op) :
    (ops.foldl LineReader.step r).Follows (seen ++ stream ops) := by
  induction ops generalizing r seen with
  | nil => simpa [stream] using h
  | cons op ops ih =>
    have hrest := ih (h.step op)
    rw [List.append_assoc] at hrest
    exact hrest

theorem follows_run (ops : List Op) : (run ops).Follows (stream ops) :=
  follows_foldl follows_new ops

/-- The lines taken are the first lines of the stream. -/
theorem lines_prefix {ops : List Op} {pieces : List (List UInt8)} {rest : List UInt8}
    (h : Pieces kCRLF (stream ops) pieces rest) : (run ops).lines <+: pieces := by
  obtain ⟨left, rest', hleft⟩ := Pieces.total kCRLF_ne_nil ((run ops).input.contents ++ [])
  have hall := (follows_run ops).pieces _ _ _ hleft
  rw [List.append_nil] at hall
  rw [(h.unique hall).1]
  exact List.prefix_append _ _

/-- A reader that finds no further line has taken them all. -/
theorem pieces_of_findCRLF_none {ops : List Op} (h : (run ops).input.findCRLF = none) :
    Pieces kCRLF (stream ops) (run ops).lines (run ops).input.contents := by
  have hf := follows_run ops
  rw [Buffer.findCRLF_eq hf.inv, Option.map_eq_none_iff] at h
  have hnil : Pieces kCRLF ((run ops).input.contents ++ []) [] (run ops).input.contents := by
    rw [List.append_nil]
    exact .rest h
  have hall := hf.pieces _ _ _ hnil
  rwa [List.append_nil, List.append_nil] at hall

/-- **The resumed search agrees with the full one.** In every buffer `FindCRLF()` returns the
position of the first pair in the readable bytes, and nothing if and only if there is none. If it
returns nothing, then after any `Append` it returns the same as `FindCRLF(start)`, where `start` is
the last byte there was before, or `Peek()` if there was none. Readers that are given the same
stream, in any chunks and with searches of either kind at any time, take lines of which one list
begins with the other; when no line is left to any of them, the lines and the rest are the same. -/
theorem find_crlf_resumes :
    (∀ b : Buffer, b.Inv →
      (∀ p, b.findCRLF = some p ↔ b.CRLFAt p ∧ ∀ q < p, ¬ b.CRLFAt q) ∧
      (b.findCRLF = none ↔ ∀ p, ¬ b.CRLFAt p) ∧
      (b.findCRLF = none → ∀ dat : List UInt8,
        (b.append dat).contents = b.contents ++ dat ∧
        (b.append dat).findCRLFFrom ((b.append dat).peek + (b.readableBytes - 1)) =
          (b.append dat).findCRLF)) ∧
    ∀ ops ops' : List Op, stream ops = stream ops' →
      (run ops).input.asserts = [] ∧
      ((run ops).lines <+: (run ops').lines ∨ (run ops').lines <+: (run ops).lines) ∧
      ((run ops).input.findCRLF = none → (run ops').input.findCRLF = none →
        (run ops).lines = (run ops').lines ∧
        (run ops).input.contents = (run ops').input.contents) := by
  constructor
  · intro b h
    refine ⟨findCRLF_eq_some_iff h, findCRLF_eq_none_iff h, fun hnone dat => ?_⟩
    exact ⟨(append_spec h dat).2, findCRLFFrom_append h hnone dat⟩
  · intro ops ops' hsame
    refine ⟨(follows_run ops).inv.noAssert, ?_, fun hnone hnone' => ?_⟩
    · obtain ⟨pieces, rest, hp⟩ := Pieces.total kCRLF_ne_nil (stream ops)
      have h := lines_prefix hp
      have h' := lines_prefix (hsame ▸ hp)
      exact List.prefix_or_prefix_of_prefix h h'
    · have h := pieces_of_findCRLF_none hnone
      have h' := pieces_of_findCRLF_none hnone'
      rw [← hsame] at h'
      exact h.unique h'

/-- `a\r\nb` with a cut inside of the pair, and in one piece. -/
theorem find_crlf_resumes_split_pair :
    (run [.append [97, 13], .find false, .append [10, 98], .find true, .find true]).lines =
      (run [.append [97, 13, 10, 98], .find false, .find false]).lines ∧
    (run [.append [97, 13], .find false, .append [10, 98], .find true, .find true]).lines =
      [[97]] := by
  obtain ⟨-, h⟩ := find_crlf_resumes
  obtain ⟨-, -, hsame⟩ := h
    [.append [97, 13], .find false, .append [10, 98], .find true, .find true]
    [.append [97, 13, 10, 98], .find false, .find false] rfl
  exact ⟨(hsame (by decide +kernel) (by decide +kernel)).1, by decide +kernel⟩

end LineReader

end LinuxNet
