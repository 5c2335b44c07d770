/-
  Albatross/ApiTable.lean
  =======================
  **The API table a server sends** (`rpc_client.py`: `RpcClient.get_apis`).

  The answer to `MSG_APIS` holds two counts and then, for every API and every
  broadcast, its command byte and its name.  `get_apis` turns it into three
  dictionaries: the command of each API, the command of each broadcast, and back
  from a command to the broadcast's name.  The command bytes are read as numbers
  from 0 to 255.

  The main result is that a well-formed table is parsed entry by entry
  (`parseApis_encodeTable`), so that what a dictionary holds under a key follows
  from `Assoc.lookup_fill_of_mem`.
-/
import Albatross.Assoc
import Albatross.Marshal

namespace Albatross.ApiTable

open Python Wire LittleEndian Framing Marshal Assoc

def MSG_APIS : Int := 3

/-! ### Parsing -/

/-- What `get_apis` sets on the client. -/
structure ApiTables where
  allowApis : Dict PyValue Int
  broadcastTables : Dict PyValue Int
  broadcastIdMaps : Dict Int PyValue

/-- `cmd = data[idx]` and `rpc_name, idx = read_string(data, idx + 1)`. -/
def readEntry (data : Bytes) (idx : Int) : Except PyExn (Int × PyValue × Int) := do
  let cmd ← index data idx
  let (rpcName, idx) ← readString data (idx + 1)
  return (cmd.toNat, rpcName, idx)

def readApis (data : Bytes) :
    Nat → Int → Dict PyValue Int → Except PyExn (Dict PyValue Int × Int)
  | 0, idx, rpcTables => return (rpcTables, idx)
  | n + 1, idx, rpcTables => do
      let (cmd, rpcName, idx) ← readEntry data idx
      readApis data n idx (rpcTables.insert rpcName cmd)

def readBroadcasts (data : Bytes) :
    Nat → Int → Dict PyValue Int → Dict Int PyValue →
      Except PyExn (Dict PyValue Int × Dict Int PyValue)
  | 0, _, tables, idMaps => return (tables, idMaps)
  | n + 1, idx, tables, idMaps => do
      let (cmd, rpcName, idx) ← readEntry data idx
      readBroadcasts data n idx (tables.insert rpcName cmd) (idMaps.insert cmd rpcName)

/-- The parsing of the answer's payload; a negative count is an empty range. -/
def parseApis : Option Bytes → Except PyExn ApiTables
  | none => .error .typeError
  | some data => do
      let numApi ← unpackSigned 4 (slice data 0 4)
      let numBroadcast ← unpackSigned 4 (slice data 4 8)
      let (rpcTables, idx) ← readApis data numApi.toNat 8 ∅
      let (tables, idMaps) ← readBroadcasts data numBroadcast.toNat idx ∅ ∅
      return ⟨rpcTables, tables, idMaps⟩

/-- `get_apis(sock)`; the state is the client's call counter and the socket. -/
def getApis (callCounter : Nat) (sock : Sock) : Outcome (Nat × Sock) ApiTables :=
  ((rpcSendData .none (.int callCounter) (.int MSG_APIS) sock.outlet).lift
    fun o => (callCounter, { sock with outlet := o })).bind fun _ s =>
  ((rpcReceiveData s.2.inbox).lift
    fun inbox => (s.1 + 1, { s.2 with inbox := inbox })).bind fun f s =>
  Outcome.ofExcept (parseApis f.data) s

/-! ### Where the reading stops -/

/-- The loop over the broadcasts, with the index it ends at. -/
def readBroadcastsTo (data : Bytes) :
    Nat → Int → Dict PyValue Int → Dict Int PyValue →
      Except PyExn ((Dict PyValue Int × Dict Int PyValue) × Int)
  | 0, idx, tables, idMaps => return ((tables, idMaps), idx)
  | n + 1, idx, tables, idMaps => do
      let (cmd, rpcName, idx) ← readEntry data idx
      readBroadcastsTo data n idx (tables.insert rpcName cmd) (idMaps.insert cmd rpcName)

/-- `parseApis`, with the index at which the reading stops. -/
def parseApisTo : Option Bytes → Except PyExn (ApiTables × Int)
  | none => .error .typeError
  | some data => do
      let numApi ← unpackSigned 4 (slice data 0 4)
      let numBroadcast ← unpackSigned 4 (slice data 4 8)
      let (rpcTables, idx) ← readApis data numApi.toNat 8 ∅
      let ((tables, idMaps), idx) ← readBroadcastsTo data numBroadcast.toNat idx ∅ ∅
      return (⟨rpcTables, tables, idMaps⟩, idx)

theorem readBroadcasts_eq (data : Bytes) (n : Nat) :
    ∀ (idx : Int) (d : Dict PyValue Int) (m : Dict Int PyValue),
      readBroadcasts data n idx d m = Prod.fst <$> readBroadcastsTo data n idx d m := by
  induction n with
  | zero => intro idx d m; rfl
  | succ n ih =>
    intro idx d m
    rw [readBroadcasts, readBroadcastsTo]
    cases readEntry data idx with
    | error e => rfl
    | ok entry => exact ih entry.2.2 _ _

theorem parseApis_eq (data : Option Bytes) : parseApis data = Prod.fst <$> parseApisTo data := by
  cases data with
  | none => rfl
  | some data =>
    unfold parseApis parseApisTo
    dsimp only
    cases unpackSigned 4 (slice data 0 4) with
    | error e => rfl
    | ok numApi =>
      cases unpackSigned 4 (slice data 4 8) with
      | error e => rfl
      | ok numBroadcast =>
        rw [bind_ok, bind_ok, bind_ok, bind_ok]
        cases readApis data numApi.toNat 8 ∅ with
        | error e => rfl
        | ok apis =>
          rw [bind_ok, bind_ok, readBroadcasts_eq]
          cases readBroadcastsTo data numBroadcast.toNat apis.2 ∅ ∅ with
          | error e => rfl
          | ok broadcasts => rfl

/-! ### Well-formed tables -/

/-- An entry of the table: a command byte and a name that can be read back. -/
structure Entry where
  cmd : UInt8
  name : String
  name_ok : TextOk name

def Entry.encode (e : Entry) : Bytes := e.cmd :: stringBytes e.name

def encodeEntries (es : List Entry) : Bytes := es.flatMap Entry.encode

def encodeTable (apis broadcasts : List Entry) : Bytes :=
  toLESigned 4 apis.length ++ (toLESigned 4 broadcasts.length ++
    (encodeEntries apis ++ encodeEntries broadcasts))

def Entry.key (e : Entry) : PyValue := textValue e.name

/-- The command an entry stands for, as the table parser reads it. -/
def Entry.id (e : Entry) : Int := e.cmd.toNat

theorem readEntry_encode (e : Entry) (pre post : Bytes) :
    readEntry (pre ++ (e.encode ++ post)) pre.length =
      .ok (e.id, e.key, ((pre ++ e.encode).length : Int)) := by
  have hindex : index (pre ++ (e.encode ++ post)) pre.length = .ok e.cmd :=
    index_middle pre (stringBytes e.name ++ post) e.cmd rfl
  have hstring := readString_reads e.name_ok (pre ++ [e.cmd]) post
  have hshift : pre ++ [e.cmd] ++ (stringBytes e.name ++ post) = pre ++ (e.encode ++ post) := by
    simp [Entry.encode]
  have hstart : ((pre ++ [e.cmd]).length : Int) = pre.length + 1 := by simp
  have hstop : (pre.length : Int) + 1 + (stringBytes e.name).length =
      ((pre ++ e.encode).length : Int) := by
    simp only [Entry.encode, List.length_append, List.length_cons]
    omega
  rw [hshift, hstart, hstop] at hstring
  unfold readEntry
  rw [hindex, bind_ok, hstring, bind_ok]
  rfl

theorem encodeEntries_cons_append (e : Entry) (es : List Entry) (post : Bytes) :
    encodeEntries (e :: es) ++ post = e.encode ++ (encodeEntries es ++ post) := by
  simp [encodeEntries]

theorem append_encodeEntries_cons (e : Entry) (es : List Entry) (pre : Bytes) :
    pre ++ e.encode ++ encodeEntries es = pre ++ encodeEntries (e :: es) := by
  simp [encodeEntries]

theorem readApis_spec (es : List Entry) : ∀ (pre post : Bytes) (d : Dict PyValue Int),
    readApis (pre ++ (encodeEntries es ++ post)) es.length pre.length d =
      .ok (fill Entry.key Entry.id es d, ((pre ++ encodeEntries es).length : Int)) := by
  induction es with
  | nil => intro pre post d; simp [readApis, encodeEntries]; rfl
  | cons e es ih =>
    intro pre post d
    rw [encodeEntries_cons_append, List.length_cons, readApis, readEntry_encode, bind_ok,
      ← List.append_assoc pre]
    dsimp only
    rw [ih, append_encodeEntries_cons, fill_cons]

theorem readBroadcastsTo_spec (es : List Entry) :
    ∀ (pre post : Bytes) (d : Dict PyValue Int) (m : Dict Int PyValue),
      readBroadcastsTo (pre ++ (encodeEntries es ++ post)) es.length pre.length d m =
        .ok ((fill Entry.key Entry.id es d, fill Entry.id Entry.key es m),
          ((pre ++ encodeEntries es).length : Int)) := by
  induction es with
  | nil => intro pre post d m; simp [readBroadcastsTo, encodeEntries]; rfl
  | cons e es ih =>
    intro pre post d m
    rw [encodeEntries_cons_append, List.length_cons, readBroadcastsTo, readEntry_encode, bind_ok,
      ← List.append_assoc pre]
    dsimp only
    rw [ih, append_encodeEntries_cons, fill_cons, fill_cons]

/-- A well-formed table is parsed entry by entry, up to its end. -/
theorem parseApisTo_encodeTable {apis broadcasts : List Entry} (hapis : apis.length < 2 ^ 31)
    (hbroadcasts : broadcasts.length < 2 ^ 31) :
    parseApisTo (some (encodeTable apis broadcasts)) =
      .ok (⟨fill Entry.key Entry.id apis ∅, fill Entry.key Entry.id broadcasts ∅,
        fill Entry.id Entry.key broadcasts ∅⟩, ((encodeTable apis broadcasts).length : Int)) := by
  have hcount : ∀ n : Nat, n < 2 ^ 31 → unpackSigned 4 (toLESigned 4 n) = .ok (n : Int) := by
    intro n hn
    apply unpackSigned_toLESigned <;> push_cast <;> omega
  have hfirst : slice (encodeTable apis broadcasts) 0 4 = toLESigned 4 apis.length :=
    slice_middle [] (toLESigned 4 apis.length) _ rfl (by rw [length_toLESigned]; rfl)
  have hsecond : slice (encodeTable apis broadcasts) 4 8 = toLESigned 4 broadcasts.length := by
    unfold encodeTable
    apply slice_middle <;> rw [length_toLESigned]
    · rfl
    · rw [length_toLESigned]
      rfl
  have hhead : encodeTable apis broadcasts =
      (toLESigned 4 apis.length ++ toLESigned 4 broadcasts.length) ++
        (encodeEntries apis ++ encodeEntries broadcasts) := by simp [encodeTable]
  have hrest : encodeTable apis broadcasts =
      (toLESigned 4 apis.length ++ toLESigned 4 broadcasts.length ++ encodeEntries apis) ++
        (encodeEntries broadcasts ++ []) := by simp [encodeTable]
  have hall : toLESigned 4 apis.length ++ toLESigned 4 broadcasts.length ++ encodeEntries apis ++
      encodeEntries broadcasts = encodeTable apis broadcasts := by simp [encodeTable]
  have hapisRead := readApis_spec apis
    (toLESigned 4 apis.length ++ toLESigned 4 broadcasts.length) (encodeEntries broadcasts) ∅
  have hbroadcastsRead := readBroadcastsTo_spec broadcasts
    (toLESigned 4 apis.length ++ toLESigned 4 broadcasts.length ++ encodeEntries apis) [] ∅ ∅
  have hstart : ((toLESigned 4 apis.length ++ toLESigned 4 broadcasts.length).length : Int) =
      8 := by
    simp
  rw [← hhead, hstart] at hapisRead
  rw [← hrest, hall] at hbroadcastsRead
  unfold parseApisTo
  dsimp only
  rw [hfirst, hcount _ hapis, bind_ok, hsecond, hcount _ hbroadcasts, bind_ok,
    Int.toNat_natCast, Int.toNat_natCast, hapisRead, bind_ok]
  dsimp only
  rw [hbroadcastsRead, bind_ok]
  rfl

/-- **A well-formed table is parsed entry by entry.** -/
theorem parseApis_encodeTable {apis broadcasts : List Entry} (hapis : apis.length < 2 ^ 31)
    (hbroadcasts : broadcasts.length < 2 ^ 31) :
    parseApis (some (encodeTable apis broadcasts)) =
      .ok ⟨fill Entry.key Entry.id apis ∅, fill Entry.key Entry.id broadcasts ∅,
        fill Entry.id Entry.key broadcasts ∅⟩ := by
  rw [parseApis_eq, parseApisTo_encodeTable hapis hbroadcasts]
  rfl

/-! ### The maps -/

/-- The three maps hold the entries of the table and nothing else. -/
structure ApiTables.Exact (tables : ApiTables) (apis broadcasts : List Entry) : Prop where
  apis : ∀ k cmd, tables.allowApis.lookup k = some cmd ↔
    ∃ e ∈ apis, k = .str e.name ∧ cmd = e.cmd.toNat
  broadcasts : ∀ k cmd, tables.broadcastTables.lookup k = some cmd ↔
    ∃ e ∈ broadcasts, k = .str e.name ∧ cmd = e.cmd.toNat
  inverse : ∀ k cmd, tables.broadcastIdMaps.lookup cmd = some k ↔
    tables.broadcastTables.lookup k = some cmd

section Maps

variable {es : List Entry}

theorem key_of_nonempty {e : Entry} (h : e.name ≠ "") : e.key = .str e.name := if_neg h

theorem keys_nodup (hnames : ∀ e ∈ es, e.name ≠ "") (h : (es.map Entry.name).Nodup) :
    (es.map Entry.key).Nodup := by
  have hmap : es.map Entry.key = (es.map Entry.name).map .str := by
    rw [List.map_map]
    exact List.map_congr_left fun e he => key_of_nonempty (hnames e he)
  rw [hmap]
  exact h.map fun _ _ heq => PyValue.str.inj heq

theorem ids_nodup (h : (es.map Entry.cmd).Nodup) : (es.map Entry.id).Nodup := by
  have hmap : es.map Entry.id = (es.map Entry.cmd).map fun cmd => (cmd.toNat : Int) := by
    rw [List.map_map]
    rfl
  rw [hmap]
  exact h.map fun _ _ heq => UInt8.toNat_inj.mp (Int.ofNat.inj heq)

theorem lookup_fill_names (hnames : ∀ e ∈ es, e.name ≠ "") (h : (es.map Entry.name).Nodup)
    (k : PyValue) (cmd : Int) :
    (fill Entry.key Entry.id es ∅).lookup k = some cmd ↔
      ∃ e ∈ es, k = .str e.name ∧ cmd = e.cmd.toNat := by
  rw [lookup_fill_empty_eq_some (keys_nodup hnames h)]
  refine exists_congr fun e => and_congr_right fun he => ?_
  rw [key_of_nonempty (hnames e he)]
  rfl

end Maps

/-- **The table is parsed exactly**, and the reading stops at its end. -/
theorem parseApis_exact {apis broadcasts : List Entry}
    (hapis : apis.length < 2 ^ 31) (hbroadcasts : broadcasts.length < 2 ^ 31)
    (hnames : ∀ e ∈ apis ++ broadcasts, e.name ≠ "")
    (hapiNames : (apis.map Entry.name).Nodup) (hbroadcastNames : (broadcasts.map Entry.name).Nodup)
    (hcmds : (broadcasts.map Entry.cmd).Nodup) :
    ∃ tables, parseApis (some (encodeTable apis broadcasts)) = .ok tables ∧
      parseApisTo (some (encodeTable apis broadcasts)) =
        .ok (tables, ((encodeTable apis broadcasts).length : Int)) ∧
      tables.Exact apis broadcasts := by
  refine ⟨_, parseApis_encodeTable hapis hbroadcasts, parseApisTo_encodeTable hapis hbroadcasts, ?_⟩
  have hapi : ∀ e ∈ apis, e.name ≠ "" := fun e he => hnames e (List.mem_append_left _ he)
  have hbroadcast : ∀ e ∈ broadcasts, e.name ≠ "" := fun e he =>
    hnames e (List.mem_append_right _ he)
  refine ⟨lookup_fill_names hapi hapiNames, lookup_fill_names hbroadcast hbroadcastNames,
    fun k cmd => ?_⟩
  dsimp only
  rw [lookup_fill_empty_eq_some (ids_nodup hcmds),
    lookup_fill_empty_eq_some (keys_nodup hbroadcast hbroadcastNames)]
  exact exists_congr fun e => and_congr_right fun _ => and_comm

/-- An API and a broadcast of the same name and command. -/
def sharedEntry : Entry := ⟨7, "open", Or.inl (by decide)⟩

theorem parseApis_exact_shared :
    ∃ tables, parseApis (some (encodeTable [sharedEntry] [sharedEntry])) = .ok tables ∧
      parseApisTo (some (encodeTable [sharedEntry] [sharedEntry])) =
        .ok (tables, ((encodeTable [sharedEntry] [sharedEntry]).length : Int)) ∧
      tables.Exact [sharedEntry] [sharedEntry] :=
  parseApis_exact (by decide) (by decide) (by simp [sharedEntry]) (by simp) (by simp) (by simp)

theorem length_encodeEntries (es : List Entry) : es.length ≤ (encodeEntries es).length := by
  induction es with
  | nil => exact Nat.le_refl 0
  | cons e es ih =>
    simp only [encodeEntries, List.flatMap_cons, List.length_append, List.length_cons,
      Entry.encode] at ih ⊢
    omega

/-- A table that fits a frame is small enough for its counts. -/
theorem parseApis_fits {apis broadcasts : List Entry} {f : Frame}
    (hdata : f.data = some (encodeTable apis broadcasts))
    (hlen : (f.data.getD []).length < 2 ^ 24) :
    parseApis f.data =
      .ok ⟨fill Entry.key Entry.id apis ∅, fill Entry.key Entry.id broadcasts ∅,
        fill Entry.id Entry.key broadcasts ∅⟩ := by
  have hapis := length_encodeEntries apis
  have hbroadcasts := length_encodeEntries broadcasts
  rw [hdata, Option.getD_some] at hlen
  simp only [encodeTable, List.length_append] at hlen
  rw [hdata]
  apply parseApis_encodeTable
  · omega
  · omega

theorem packFrame_table {callCounter : Nat} (hcounter : callCounter < 2 ^ 16) :
    packFrame .none (.int callCounter) (.int MSG_APIS) =
      .ok (rawFrame callCounter (wordOf 0 MSG_APIS) []) := by
  have h := packFrame_int hcounter (c := MSG_APIS) (by decide) (by decide) none
  rw [if_pos (by decide)] at h
  exact h

/-- **Connecting fetches the table.**  The request goes out under the counter's id,
    and an answer that fits a frame is parsed into the three dictionaries. -/
theorem getApis_ok {apis broadcasts : List Entry} {callCounter : Nat} {sock : Sock} {f : Frame}
    (hcounter : callCounter < 2 ^ 16) (ho : sock.outlet.Accepting) (hv : f.Valid)
    (hdata : f.data = some (encodeTable apis broadcasts)) {body rest : Inbox} (hd : Data body)
    (hb : bytesOf body = f.encode) (hinbox : sock.inbox = body ++ rest) :
    ∃ s, getApis callCounter sock =
      .ok ⟨fill Entry.key Entry.id apis ∅, fill Entry.key Entry.id broadcasts ∅,
        fill Entry.id Entry.key broadcasts ∅⟩ s := by
  obtain ⟨o, hsend, _⟩ := rpcSendData_ok (packFrame_table hcounter) ho
  obtain ⟨body', hrecv, _⟩ := frames.receive_data hv hd
    (hb.trans (List.append_nil _).symm) rest
  have hrecv' : rpcReceiveData sock.inbox = .ok f (body' ++ rest) := by rw [hinbox]; exact hrecv
  have hparse := parseApis_fits hdata hv.data_lt
  refine ⟨(callCounter + 1, { sock with outlet := o, inbox := body' ++ rest }), ?_⟩
  unfold getApis
  rw [hsend, Outcome.lift_ok, Outcome.bind_ok, hrecv', Outcome.lift_ok, Outcome.bind_ok,
    hparse, Outcome.ofExcept_ok]

theorem getApis_parsed {callCounter : Nat} {sock : Sock} {tables : ApiTables} {s : Nat × Sock}
    {f : Frame} {inbox : Inbox} (hget : getApis callCounter sock = .ok tables s)
    (hrecv : rpcReceiveData sock.inbox = .ok f inbox) : parseApis f.data = .ok tables := by
  unfold getApis at hget
  obtain ⟨u, s₁, hsent, hrest⟩ := Outcome.bind_eq_ok hget
  have hinbox : s₁.2.inbox = sock.inbox := by
    cases hsend : rpcSendData .none (.int callCounter) (.int MSG_APIS) sock.outlet with
    | ok u o =>
      rw [hsend] at hsent
      cases hsent
      rfl
    | raised e o =>
      rw [hsend] at hsent
      cases hsent
    | blocked o =>
      rw [hsend] at hsent
      cases hsent
  rw [hinbox, hrecv, Outcome.lift_ok, Outcome.bind_ok] at hrest
  cases hparse : parseApis f.data with
  | ok t =>
    rw [hparse] at hrest
    cases hrest
    rfl
  | error e =>
    rw [hparse] at hrest
    cases hrest

end Albatross.ApiTable
