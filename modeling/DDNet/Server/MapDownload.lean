/-
The download of a map (`CServer::SendMapData`, the handler of `NETMSG_REQUEST_MAP_DATA` in `engine/server/server.cpp`, and
the handler of `NETMSG_MAP_DATA` in `engine/client/client.cpp`).

Server and client send each other vital chunks, which arrive in order and once.  The client writes chunk after chunk into
a file.  With fast download the server runs ahead of the requests by a window, which to a 0.7 client it announces.
-/
import Mathlib.Data.Nat.Cast.Basic
import Mathlib.Tactic.Ring
import DDNet.Lib.Transition

namespace DDNet

open Lib

/-! ### Messages -/

/-- The size of a chunk of a map. -/
def mapChunkSize : ℕ := 1024 - 128

/-- `NETMSG_MAP_DATA`: the ints, which a 0.7 client does not get, and the rest. -/
structure MapData where
  ints : List ℤ
  raw : List UInt8

/-- `NETMSG_REQUEST_MAP_DATA`, as a 0.6 and as a 0.7 message. -/
inductive MapRequest where
  | request (chunk : ℤ)
  | request7
deriving DecidableEq

/-! ### Server -/

/-- What `CServer` knows of the map and of the client. -/
structure MapServer where
  sixup : Bool
  mapWindow : ℕ
  fastDownload : Bool
  mapData : List UInt8
  mapCrc : ℤ
  nextMapChunk : ℤ

namespace MapServer

/-- `SendMapData`; the offset is an unsigned int. -/
def sendMapData (s : MapServer) (chunk : ℤ) : List MapData :=
  let offset := (chunk * mapChunkSize % 2 ^ 32).toNat
  -- drop faulty map data requests
  if chunk < 0 ∨ s.mapData.length < offset then []
  else
    let last := s.mapData.length ≤ (offset + mapChunkSize) % 2 ^ 32
    let chunkSize := if last then s.mapData.length - offset else mapChunkSize
    [{ ints := if s.sixup then [] else [if last then 1 else 0, s.mapCrc, chunk, chunkSize]
       raw := (s.mapData.drop offset).take chunkSize }]

/-- The loops of the handler. -/
def sendWindow (s : MapServer) (chunk : ℤ) : ℕ → List MapData
  | 0 => []
  | n + 1 => s.sendMapData chunk ++ s.sendWindow (chunk + 1) n

/-- The handler of `NETMSG_REQUEST_MAP_DATA`.  For a server that has a 0.7 client the 0.6 message is
`protocol7::NETMSG_ENTERGAME`, which is ignored while the client is connecting. -/
def requestMapData (s : MapServer) (request : MapRequest) : MapServer × List MapData :=
  if s.sixup then
    match request with
    | .request _ => (s, [])
    | .request7 => ({ s with nextMapChunk := s.nextMapChunk + s.mapWindow }, s.sendWindow s.nextMapChunk s.mapWindow)
  else
    match request with
    | .request7 => (s, [])
    | .request chunk =>
        if chunk ≠ s.nextMapChunk ∨ s.fastDownload = false then (s, s.sendMapData chunk)
        else
          ({ s with nextMapChunk := s.nextMapChunk + 1 },
            (if chunk = 0 then s.sendWindow 0 s.mapWindow else []) ++ s.sendMapData (s.mapWindow + s.nextMapChunk))

end MapServer

/-! ### Client -/

/-- What `CClient` knows of the download; a file is a list of what is written into it. -/
structure MapClient where
  sixup : Bool
  /-- What a 0.7 server has announced, `m_TranslationContext`. -/
  totalsize : ℤ
  chunkSize : ℤ
  chunksPerRequest : ℤ
  crc : ℤ
  chunk : ℤ
  amount : ℤ
  fileTemp : Option (List (List UInt8))
  file : Option (List (List UInt8))

namespace MapClient

/-- `GetRaw`. -/
def getRaw (raw : List UInt8) (size : ℤ) : Option (List UInt8) :=
  if 0 ≤ size ∧ size ≤ raw.length then some (raw.take size.toNat) else none

/-- The fields of the message: last, crc, chunk and size. -/
def mapDataFields (c : MapClient) (m : MapData) : Option (ℤ × ℤ × ℤ × ℤ) :=
  if c.sixup then some (-1, c.crc, c.chunk, min c.chunkSize (c.totalsize - c.amount))
  else
    match m.ints with
    | last :: crc :: chunk :: size :: _ => some (last, crc, chunk, size)
    | _ => none

/-- The next request; `none` if this divides by zero. -/
def nextRequest (c : MapClient) (chunk : ℤ) : Option MapRequest :=
  if c.sixup then
    if c.chunksPerRequest = 0 then none
    else if chunk.tmod c.chunksPerRequest = 0 then some .request7
    else some (.request chunk)
  else
    some (.request chunk)

/-- The handler of `NETMSG_MAP_DATA`.  The downloaded map is loaded, which ends the download. -/
def processMapData (c : MapClient) (m : MapData) : Option (MapClient × List MapRequest) :=
  match c.fileTemp, c.mapDataFields m with
  | none, _ => some (c, [])
  | some _, none => some (c, [])
  | some written, some (last, crc, chunk, size) =>
      match getRaw m.raw size with
      | none => some (c, [])
      | some data =>
          if size ≤ 0 ∨ crc ≠ c.crc ∨ chunk ≠ c.chunk then some (c, [])
          else
            let amount := c.amount + size
            if (if c.sixup then amount = c.totalsize else last ≠ 0) then
              some ({ c with amount := 0, chunk := 0, fileTemp := none, file := some (written ++ [data]) }, [])
            else
              (c.nextRequest (c.chunk + 1)).map fun request =>
                ({ c with amount := amount, chunk := c.chunk + 1, fileTemp := some (written ++ [data]) }, [request])

end MapClient

/-! ### The exchange -/

/-- Server and client, and the messages on their way. -/
structure MapExchange where
  server : MapServer
  client : MapClient
  toServer : List MapRequest
  toClient : List MapData

namespace MapExchange

/-- `SendMap`, and the client that starts to download. -/
def start (s : MapServer) : MapExchange where
  server := { s with nextMapChunk := 0 }
  client :=
    { sixup := s.sixup
      totalsize := if s.sixup then s.mapData.length else -1
      chunkSize := if s.sixup then mapChunkSize else 0
      chunksPerRequest := if s.sixup then s.mapWindow else 0
      crc := s.mapCrc
      chunk := 0
      amount := 0
      fileTemp := some []
      file := none }
  toServer := [if s.sixup then .request7 else .request 0]
  toClient := []

/-- The server or the client receives a message. -/
inductive Step : MapExchange → MapExchange → Prop
  | server (x : MapExchange) (request : MapRequest) (rest : List MapRequest) (h : x.toServer = request :: rest) :
      Step x { x with
        server := (x.server.requestMapData request).1
        toServer := rest
        toClient := x.toClient ++ (x.server.requestMapData request).2 }
  | client (x : MapExchange) (m : MapData) (rest : List MapData) (client : MapClient) (requests : List MapRequest)
      (h : x.toClient = m :: rest) (hprocess : x.client.processMapData m = some (client, requests)) :
      Step x { x with client := client, toServer := x.toServer ++ requests, toClient := rest }

/-- The client divides by zero. -/
def DividesByZero (x : MapExchange) : Prop :=
  ∃ m rest, x.toClient = m :: rest ∧ x.client.processMapData m = none

end MapExchange

/-! ### Chunks of a map -/

/-- A chunk of the map. -/
def mapChunk (data : List UInt8) (k : ℕ) : List UInt8 := (data.drop (k * mapChunkSize)).take mapChunkSize

def numMapChunks (data : List UInt8) : ℕ := (data.length + mapChunkSize - 1) / mapChunkSize

/-- The first chunks. -/
def mapChunks (data : List UInt8) (n : ℕ) : List (List UInt8) := (List.range n).map (mapChunk data)

/-- The download of the map can always be completed, with all of its chunks, each written once and in order. -/
structure Downloads (x : MapExchange) (data : List UInt8) : Prop where
  noDivision : ∀ n y, RunOf MapExchange.Step x n y → ¬ y.DividesByZero
  inOrder : ∀ n y, RunOf MapExchange.Step x n y → ∀ written, y.client.fileTemp = some written →
    y.client.chunk = written.length ∧ written = mapChunks data written.length
  /-- What comes after the last chunk is ignored. -/
  surplus : ∀ n y, RunOf MapExchange.Step x n y → y.client.file.isSome = true → ∀ z, y.Step z → z.client = y.client
  completes : Completes MapExchange.Step x fun y =>
    ∃ written, y.client.file = some written ∧ written = mapChunks data (numMapChunks data) ∧ written.flatten = data

/-! ### The chunks are the map -/

lemma mapChunks_succ (data : List UInt8) (n : ℕ) : mapChunks data (n + 1) = mapChunks data n ++ [mapChunk data n] := by
  rw [mapChunks, List.range_succ, List.map_append]
  rfl

lemma length_mapChunks (data : List UInt8) (n : ℕ) : (mapChunks data n).length = n := by
  rw [mapChunks, List.length_map, List.length_range]

lemma flatten_mapChunks (data : List UInt8) (n : ℕ) : (mapChunks data n).flatten = data.take (n * mapChunkSize) := by
  induction n with
  | zero => rw [Nat.zero_mul, List.take_zero]; rfl
  | succ n ih =>
    rw [mapChunks_succ, List.flatten_append, ih, Nat.succ_mul, List.take_add]
    simp [mapChunk]

lemma length_mapChunk (data : List UInt8) (k : ℕ) :
    (mapChunk data k).length = min mapChunkSize (data.length - k * mapChunkSize) := by
  rw [mapChunk, List.length_take, List.length_drop]

lemma lt_numMapChunks {data : List UInt8} {k : ℕ} : k < numMapChunks data ↔ k * mapChunkSize < data.length := by
  rw [numMapChunks, mapChunkSize]
  omega

/-- A chunk is the last one if it reaches to the end of the map. -/
lemma last_iff {data : List UInt8} {k : ℕ} (hk : k < numMapChunks data) :
    data.length ≤ k * mapChunkSize + mapChunkSize ↔ k + 1 = numMapChunks data := by
  rw [numMapChunks, mapChunkSize] at *
  omega

/-- Every chunk but the last one is a full one. -/
lemma length_mapChunk_of_lt {data : List UInt8} {k : ℕ} (hk : k < numMapChunks data) : 0 < (mapChunk data k).length ∧
    (k + 1 = numMapChunks data → k * mapChunkSize + (mapChunk data k).length = data.length) ∧
    (k + 1 ≠ numMapChunks data →
      (mapChunk data k).length = mapChunkSize ∧ k * mapChunkSize + mapChunkSize < data.length) := by
  have hlast := last_iff hk
  have hlt := lt_numMapChunks.mp hk
  have hsize : 0 < mapChunkSize := by decide
  rw [length_mapChunk, ← hlast]
  exact ⟨by omega, fun hend => by omega, fun hmore => by omega⟩

lemma flatten_all (data : List UInt8) : (mapChunks data (numMapChunks data)).flatten = data := by
  rw [flatten_mapChunks, List.take_of_length_le]
  rw [numMapChunks, mapChunkSize]
  omega

namespace MapServer

/-- The message with a chunk. -/
def chunkMessage (s : MapServer) (k : ℕ) : MapData where
  ints := if s.sixup then []
    else [if s.mapData.length ≤ k * mapChunkSize + mapChunkSize then 1 else 0, s.mapCrc, k, (mapChunk s.mapData k).length]
  raw := mapChunk s.mapData k

/-- A chunk that the map has, or an empty one right behind the last one, is sent; otherwise nothing is. -/
lemma sendMapData_eq (s : MapServer) {k : ℕ} (hk : k * mapChunkSize + mapChunkSize < 2 ^ 32) :
    s.sendMapData k = if k * mapChunkSize ≤ s.mapData.length then [s.chunkMessage k] else [] := by
  have hoffset : ((k : ℤ) * mapChunkSize % 2 ^ 32).toNat = k * mapChunkSize := by
    rw [Int.emod_eq_of_lt (by omega) (by omega)]
    omega
  rw [sendMapData]
  simp only [hoffset, Nat.mod_eq_of_lt hk]
  by_cases hend : k * mapChunkSize ≤ s.mapData.length
  · rw [if_neg (by omega), if_pos hend, chunkMessage]
    have hsize : (if s.mapData.length ≤ k * mapChunkSize + mapChunkSize then s.mapData.length - k * mapChunkSize
        else mapChunkSize) = (mapChunk s.mapData k).length := by
      rw [length_mapChunk]
      split_ifs <;> omega
    have hraw : (s.mapData.drop (k * mapChunkSize)).take (mapChunk s.mapData k).length = mapChunk s.mapData k := by
      rw [length_mapChunk, ← List.length_drop, ← List.take_take, List.take_length, mapChunk]
    rw [hsize, hraw]
  · rw [if_pos (by omega), if_neg hend]

lemma length_sendMapData (s : MapServer) (chunk : ℤ) : (s.sendMapData chunk).length ≤ 1 := by
  rw [sendMapData]
  dsimp only
  by_cases hdrop : chunk < 0 ∨ s.mapData.length < (chunk * mapChunkSize % 2 ^ 32).toNat
  · rw [if_pos hdrop]
    exact Nat.zero_le 1
  · rw [if_neg hdrop]
    exact le_refl 1

lemma length_sendWindow (s : MapServer) (chunk : ℤ) (n : ℕ) : (s.sendWindow chunk n).length ≤ n := by
  induction n generalizing chunk with
  | zero => exact le_refl 0
  | succ n ih =>
    have hfirst := s.length_sendMapData chunk
    have hrest := ih (chunk + 1)
    rw [sendWindow, List.length_append]
    omega

lemma sendWindow_add (s : MapServer) (chunk : ℤ) (n n' : ℕ) :
    s.sendWindow chunk (n + n') = s.sendWindow chunk n ++ s.sendWindow (chunk + n) n' := by
  induction n generalizing chunk with
  | zero => rw [Nat.zero_add, Nat.cast_zero, add_zero]; rfl
  | succ n ih =>
    have hmove : chunk + 1 + n = chunk + (n + 1 : ℕ) := by
      push_cast
      ring
    rw [Nat.add_right_comm, sendWindow, ih, hmove, sendWindow, List.append_assoc]

/-- What is sent depends on the map only. -/
lemma sendMapData_congr {s s' : MapServer} (hsixup : s'.sixup = s.sixup) (hdata : s'.mapData = s.mapData)
    (hcrc : s'.mapCrc = s.mapCrc) : s'.sendMapData = s.sendMapData := by
  funext chunk
  rw [sendMapData, sendMapData, hsixup, hdata, hcrc]

lemma sendWindow_congr {s s' : MapServer} (h : s'.sendMapData = s.sendMapData) : s'.sendWindow = s.sendWindow := by
  funext chunk n
  induction n generalizing chunk with
  | zero => rfl
  | succ n ih => rw [sendWindow, sendWindow, h, ih]

end MapServer

/-! ### While the client downloads -/

/-- A map that a client downloads; a 0.7 client is promised a chunk for every request. -/
structure MapServer.Serves (s : MapServer) : Prop where
  window : s.mapWindow ≤ 100
  pos : 1 ≤ s.mapData.length
  /-- The client refuses larger maps. -/
  le : s.mapData.length ≤ 1024 * 1024 * 1024
  promise : s.sixup = true → s.mapWindow ≠ 0

namespace MapExchange

/-- How many chunks are sent after the first requests. -/
def sentChunks (s : MapServer) (q : ℕ) : ℕ :=
  if s.sixup then s.mapWindow * ((q + s.mapWindow - 1) / s.mapWindow)
  else if s.fastDownload then if q = 0 then 0 else s.mapWindow + q
  else q

/-- The request that the client makes before it gets a chunk. -/
def requestAt (s : MapServer) (k : ℕ) : MapRequest :=
  if s.sixup = true ∧ k % s.mapWindow = 0 then .request7 else .request k

/-- The server after the first requests. -/
def serverAt (s : MapServer) (q : ℕ) : MapServer :=
  { s with nextMapChunk := if s.sixup then sentChunks s q else if s.fastDownload then q else 0 }

/-- The client after the first chunks. -/
def clientAt (s : MapServer) (c : ℕ) : MapClient :=
  { (start s).client with chunk := c, amount := c * mapChunkSize, fileTemp := some (mapChunks s.mapData c) }

/-- The first chunks have been written, the first requests answered. -/
structure Running (s : MapServer) (x : MapExchange) (c q : ℕ) : Prop where
  server : x.server = serverAt s q
  client : x.client = clientAt s c
  lt : c < numMapChunks s.mapData
  requested : q ≤ c + 1
  sent : c ≤ sentChunks s q
  toServer : x.toServer = (List.range' q (c + 1 - q)).map (requestAt s)
  toClient : x.toClient = s.sendWindow c (sentChunks s q - c)

/-- The client has closed its file. -/
structure Finished (s : MapServer) (x : MapExchange) : Prop where
  window : x.server.mapWindow = s.mapWindow
  fileTemp : x.client.fileTemp = none
  file : x.client.file = some (mapChunks s.mapData (numMapChunks s.mapData))

lemma sendMapData_serverAt (s : MapServer) (q : ℕ) : (serverAt s q).sendMapData = s.sendMapData :=
  MapServer.sendMapData_congr rfl rfl rfl

lemma sendWindow_serverAt (s : MapServer) (q : ℕ) : (serverAt s q).sendWindow = s.sendWindow :=
  MapServer.sendWindow_congr (sendMapData_serverAt s q)

lemma sendWindow_one (s : MapServer) (chunk : ℤ) : s.sendWindow chunk 1 = s.sendMapData chunk := List.append_nil _

/-- The client reads the size of the chunk, or infers it. -/
lemma mapDataFields_at {s : MapServer} {c : ℕ} (hc : c < numMapChunks s.mapData) :
    ∃ last : ℤ, (clientAt s c).mapDataFields (s.chunkMessage c) =
      some (last, s.mapCrc, (c : ℤ), ((mapChunk s.mapData c).length : ℤ)) ∧
      (s.sixup = false → (last ≠ 0 ↔ c + 1 = numMapChunks s.mapData)) := by
  have hlt := lt_numMapChunks.mp hc
  rw [MapClient.mapDataFields.eq_def]
  cases hsixup : s.sixup with
  | true =>
    have hclient : (clientAt s c).sixup = true := hsixup
    have hsize : min (clientAt s c).chunkSize ((clientAt s c).totalsize - (clientAt s c).amount) =
        (mapChunk s.mapData c).length := by
      rw [length_mapChunk]
      simp only [clientAt, start, hsixup, if_true]
      omega
    refine ⟨-1, ?_, fun hbad => absurd hbad.symm Bool.false_ne_true⟩
    rw [if_pos hclient, hsize]
    rfl
  | false =>
    have hclient : (clientAt s c).sixup = false := hsixup
    refine ⟨if s.mapData.length ≤ c * mapChunkSize + mapChunkSize then 1 else 0, ?_, fun _ => ?_⟩
    · rw [hclient, MapServer.chunkMessage, hsixup]
      rfl
    · rw [← last_iff hc]
      split_ifs with hend
      · exact iff_of_true one_ne_zero hend
      · exact iff_of_false (fun hbad => hbad rfl) hend

section serves

variable {s : MapServer} (h : s.Serves)

include h

lemma sentChunks_succ (q : ℕ) : sentChunks s (q + 1) = sentChunks s q +
    if s.sixup then if q % s.mapWindow = 0 then s.mapWindow else 0
    else if s.fastDownload = true ∧ q = 0 then s.mapWindow + 1 else 1 := by
  rw [sentChunks, sentChunks]
  cases hsixup : s.sixup with
  | true =>
    have hpos : 0 < s.mapWindow := Nat.pos_of_ne_zero (h.promise hsixup)
    have hmod := Nat.div_add_mod q s.mapWindow
    have hlt := Nat.mod_lt q hpos
    simp only [if_true]
    by_cases hzero : q % s.mapWindow = 0
    · have hthis : (q + s.mapWindow - 1) / s.mapWindow = q / s.mapWindow := by
        refine Nat.div_eq_of_lt_le ?_ ?_
        · rw [Nat.mul_comm]
          omega
        · rw [Nat.succ_mul, Nat.mul_comm]
          omega
      have hnext : (q + 1 + s.mapWindow - 1) / s.mapWindow = q / s.mapWindow + 1 := by
        rw [Nat.add_right_comm, Nat.add_sub_cancel, Nat.add_div_right q hpos]
      rw [if_pos hzero, hthis, hnext, Nat.mul_succ]
    · have hthis : (q + s.mapWindow - 1) / s.mapWindow = q / s.mapWindow + 1 := by
        refine Nat.div_eq_of_lt_le ?_ ?_
        · rw [Nat.succ_mul, Nat.mul_comm]
          omega
        · rw [Nat.succ_mul, Nat.succ_mul, Nat.mul_comm]
          omega
      have hnext : (q + 1 + s.mapWindow - 1) / s.mapWindow = q / s.mapWindow + 1 := by
        rw [Nat.add_right_comm, Nat.add_sub_cancel, Nat.add_div_right q hpos]
      rw [if_neg hzero, hthis, hnext]
      rfl
  | false =>
    cases hfast : s.fastDownload with
    | true =>
      by_cases hq : q = 0
      · subst hq
        simp
      · simp [hq, Nat.add_assoc]
    | false => simp

/-- A request brings the next chunks. -/
lemma requestMapData_at (q : ℕ) : (serverAt s q).requestMapData (requestAt s q) =
    (serverAt s (q + 1), s.sendWindow (sentChunks s q) (sentChunks s (q + 1) - sentChunks s q)) := by
  have hsucc := sentChunks_succ h q
  rw [MapServer.requestMapData.eq_def]
  cases hsixup : s.sixup with
  | true =>
    have hserver : (serverAt s q).sixup = true := hsixup
    have hnext : (serverAt s q).nextMapChunk = sentChunks s q := if_pos hsixup
    rw [hsixup, if_pos rfl] at hsucc
    rw [if_pos hserver, requestAt, hsixup]
    by_cases hzero : q % s.mapWindow = 0
    · rw [if_pos hzero] at hsucc
      rw [if_pos ⟨rfl, hzero⟩, hsucc, Nat.add_sub_cancel_left]
      dsimp only
      rw [sendWindow_serverAt, hnext]
      congr 1
      rw [serverAt, serverAt, hsixup, hsucc]
      push_cast
      rfl
    · have hsame : sentChunks s (q + 1) = sentChunks s q := by rw [hsucc, if_neg hzero]; rfl
      rw [if_neg fun hbad => hzero hbad.2, hsame, Nat.sub_self, serverAt, serverAt, hsixup, hsame]
      rfl
  | false =>
    have hserver : ¬ (serverAt s q).sixup = true := by
      show ¬ s.sixup = true
      rw [hsixup]
      exact Bool.false_ne_true
    rw [hsixup, if_neg Bool.false_ne_true] at hsucc
    rw [if_neg hserver, requestAt, if_neg (by simp [hsixup])]
    dsimp only
    cases hfast : s.fastDownload with
    | true =>
      have hnext : (serverAt s q).nextMapChunk = q := by
        rw [serverAt, hsixup, hfast]
        rfl
      have hfast' : ¬ (serverAt s q).fastDownload = false := by
        show ¬ s.fastDownload = false
        rw [hfast]
        exact fun hbad => Bool.false_ne_true hbad.symm
      have hserverAt : ({ serverAt s q with nextMapChunk := (q : ℤ) + 1 } : MapServer) = serverAt s (q + 1) := by
        rw [serverAt, serverAt, hsixup, hfast]
        push_cast
        rfl
      rw [hnext, if_neg (by simp [hfast']), sendWindow_serverAt, sendMapData_serverAt, hserverAt]
      by_cases hq : q = 0
      · subst hq
        rw [hfast, if_pos ⟨rfl, rfl⟩] at hsucc
        have hzero : sentChunks s 0 = 0 := by
          rw [sentChunks, hsixup, hfast]
          rfl
        have hwindow : (serverAt s 0).mapWindow = s.mapWindow := rfl
        rw [hsucc, hzero, Nat.zero_add, Nat.zero_add, Nat.sub_zero, if_pos Nat.cast_zero, Nat.cast_zero, add_zero,
          MapServer.sendWindow_add, sendWindow_one, zero_add, hwindow]
      · rw [if_neg (by tauto)] at hsucc
        have hsent : sentChunks s q = s.mapWindow + q := by
          rw [sentChunks, hsixup, hfast, if_neg Bool.false_ne_true, if_pos rfl, if_neg hq]
        rw [if_neg (by exact_mod_cast hq), hsucc, Nat.add_sub_cancel_left, sendWindow_one, List.nil_append, hsent]
        push_cast
        rfl
    | false =>
      have hfast' : (serverAt s q).fastDownload = false := hfast
      have hsent : sentChunks s q = q := by
        rw [sentChunks, hsixup, hfast]
        rfl
      rw [hfast, if_neg (by simp)] at hsucc
      have hserverAt : serverAt s q = serverAt s (q + 1) := by
        rw [serverAt, serverAt, hsixup, hfast]
        rfl
      rw [if_pos (.inr hfast'), sendMapData_serverAt, hsucc, Nat.add_sub_cancel_left, sendWindow_one, hsent, hserverAt]

/-- The client is never owed a chunk that nothing on its way will bring. -/
lemma lt_sentChunks (c : ℕ) : c < sentChunks s (c + 1) := by
  rw [sentChunks]
  by_cases hsixup : s.sixup = true
  · have hpos : 0 < s.mapWindow := Nat.pos_of_ne_zero (h.promise hsixup)
    have hmod := Nat.div_add_mod (c + 1 + s.mapWindow - 1) s.mapWindow
    have hlt := Nat.mod_lt (c + 1 + s.mapWindow - 1) hpos
    rw [if_pos hsixup]
    omega
  · rw [if_neg hsixup, if_neg c.succ_ne_zero]
    split_ifs
    · omega
    · exact Nat.lt_succ_self c

lemma sentChunks_le_succ (q : ℕ) : sentChunks s q ≤ sentChunks s (q + 1) := by
  rw [sentChunks_succ h]
  exact Nat.le_add_right _ _

lemma chunk_lt {c : ℕ} (hc : c < numMapChunks s.mapData) : c * mapChunkSize + mapChunkSize < 2 ^ 32 := by
  have hend : c * mapChunkSize < 1024 * 1024 * 1024 := (lt_numMapChunks.mp hc).trans_le h.le
  have hsize : mapChunkSize < 1024 := by decide
  exact (Nat.add_lt_add hend hsize).trans (by decide)

/-- The chunk that the client waits for is the first one on its way. -/
lemma sendWindow_head {c n : ℕ} (hc : c < numMapChunks s.mapData) :
    s.sendWindow c (n + 1) = s.chunkMessage c :: s.sendWindow (c + 1 : ℕ) n := by
  have hend : c * mapChunkSize ≤ s.mapData.length := (lt_numMapChunks.mp hc).le
  have hfirst : s.sendMapData c = [s.chunkMessage c] := by
    rw [s.sendMapData_eq (chunk_lt h hc), if_pos hend]
  calc s.sendWindow c (n + 1) = s.sendMapData c ++ s.sendWindow ((c : ℤ) + 1) n := rfl
    _ = s.chunkMessage c :: s.sendWindow (c + 1 : ℕ) n := by
      rw [hfirst]
      rfl

/-- The client with all chunks. -/
def clientDone (s : MapServer) : MapClient :=
  { (start s).client with fileTemp := none, file := some (mapChunks s.mapData (numMapChunks s.mapData)) }

lemma nextRequest_clientAt (c : ℕ) : (clientAt s c).nextRequest (c + 1 : ℕ) = some (requestAt s (c + 1)) := by
  rw [MapClient.nextRequest, requestAt]
  cases hsixup : s.sixup with
  | true =>
    have hclient : (clientAt s c).sixup = true := hsixup
    have hper : (clientAt s c).chunksPerRequest = s.mapWindow := if_pos hsixup
    have hzero : (s.mapWindow : ℤ) ≠ 0 := Nat.cast_ne_zero.mpr (h.promise hsixup)
    have hmod : (((c + 1 : ℕ) : ℤ).tmod s.mapWindow = 0) ↔ (c + 1) % s.mapWindow = 0 := by
      rw [← Int.ofNat_tmod]
      omega
    rw [if_pos hclient, hper, if_neg hzero]
    by_cases hnext : (c + 1) % s.mapWindow = 0
    · rw [if_pos (hmod.mpr hnext), if_pos ⟨rfl, hnext⟩]
    · rw [if_neg (mt hmod.mp hnext), if_neg fun hbad => hnext hbad.2]
  | false =>
    have hclient : (clientAt s c).sixup = false := hsixup
    rw [hclient]
    rfl

/-- The chunk is written, and the next one is requested if there is one. -/
lemma processMapData_at {c : ℕ} (hc : c < numMapChunks s.mapData) :
    (clientAt s c).processMapData (s.chunkMessage c) =
      if c + 1 = numMapChunks s.mapData then some (clientDone s, [])
      else some (clientAt s (c + 1), [requestAt s (c + 1)]) := by
  obtain ⟨hpos, hend, hmore⟩ := length_mapChunk_of_lt hc
  obtain ⟨last, hfields, hlast⟩ := mapDataFields_at hc
  have hget : MapClient.getRaw (mapChunk s.mapData c) (mapChunk s.mapData c).length = some (mapChunk s.mapData c) := by
    rw [MapClient.getRaw, if_pos ⟨Int.natCast_nonneg _, le_refl _⟩, Int.toNat_natCast, List.take_length]
  have hfile : (clientAt s c).fileTemp = some (mapChunks s.mapData c) := rfl
  have haccept : ¬ (((mapChunk s.mapData c).length : ℤ) ≤ 0 ∨ s.mapCrc ≠ (clientAt s c).crc ∨
      (c : ℤ) ≠ (clientAt s c).chunk) := by
    rintro (hbad | hbad | hbad)
    · omega
    · exact hbad rfl
    · exact hbad rfl
  have hdone : (if (clientAt s c).sixup then
      (clientAt s c).amount + (mapChunk s.mapData c).length = (clientAt s c).totalsize else last ≠ 0) ↔
      c + 1 = numMapChunks s.mapData := by
    cases hsixup : s.sixup with
    | true =>
      simp only [clientAt, start, hsixup, if_true]
      constructor
      · intro hall
        by_contra hne
        obtain ⟨hfull, hlt⟩ := hmore hne
        omega
      · intro hall
        have := hend hall
        omega
    | false =>
      have hclient : (clientAt s c).sixup = false := hsixup
      rw [hclient]
      exact hlast hsixup
  rw [MapClient.processMapData, hfile, hfields]
  simp only [MapServer.chunkMessage, hget, if_neg haccept]
  by_cases hall : c + 1 = numMapChunks s.mapData
  · rw [if_pos (hdone.mpr hall), if_pos hall, ← mapChunks_succ, hall]
    rfl
  · have hamount : (clientAt s c).amount + (mapChunk s.mapData c).length = (clientAt s (c + 1)).amount := by
      rw [(hmore hall).1]
      simp only [clientAt]
      push_cast
      ring
    have hchunk : (clientAt s c).chunk + 1 = (c + 1 : ℕ) := (Nat.cast_succ c).symm
    rw [if_neg (mt hdone.mp hall), if_neg hall, ← mapChunks_succ, hamount, hchunk, nextRequest_clientAt h]
    rfl

/-! ### Every step -/

/-- The download goes on, or is done. -/
def Fine (s : MapServer) (x : MapExchange) : Prop := (∃ c q, Running s x c q) ∨ Finished s x

lemma sentChunks_zero : sentChunks s 0 = 0 := by
  rw [sentChunks]
  split_ifs with hsixup hfast hzero
  · rw [Nat.zero_add, Nat.div_eq_of_lt (Nat.sub_lt (Nat.pos_of_ne_zero (h.promise hsixup)) one_pos), Nat.mul_zero]
  · rfl
  · exact absurd rfl hzero
  · rfl

lemma running_start : Running s (start s) 0 0 where
  server := by
    rw [start, serverAt, sentChunks_zero h]
    simp
  client := by
    rw [clientAt, start]
    simp [mapChunks]
  lt := lt_numMapChunks.mpr (by rw [Nat.zero_mul]; exact h.pos)
  requested := Nat.zero_le _
  sent := Nat.zero_le _
  toServer := by
    show [if s.sixup then MapRequest.request7 else .request 0] = [requestAt s 0]
    simp [requestAt]
  toClient := by
    rw [sentChunks_zero h]
    rfl

/-- Every request that the client has made and the server has answered. -/
lemma Running.serve {x : MapExchange} {c q : ℕ} (hx : Running s x c q) {request : MapRequest} {rest : List MapRequest}
    (hrequest : x.toServer = request :: rest) :
    Running s { x with
      server := (x.server.requestMapData request).1
      toServer := rest
      toClient := x.toClient ++ (x.server.requestMapData request).2 } c (q + 1) := by
  have hle := sentChunks_le_succ h q
  have hsent := hx.sent
  have hmore : q ≤ c := by
    by_contra hnone
    have hempty := hx.toServer
    rw [Nat.sub_eq_zero_of_le (by omega), hrequest] at hempty
    exact List.cons_ne_nil _ _ hempty
  have hlist : (List.range' q (c + 1 - q)).map (requestAt s) =
      requestAt s q :: (List.range' (q + 1) (c + 1 - (q + 1))).map (requestAt s) := by
    rw [show c + 1 - q = c + 1 - (q + 1) + 1 by omega, List.range'_succ, List.map_cons]
  have hserver := hx.toServer
  rw [hrequest, hlist] at hserver
  obtain ⟨rfl, rfl⟩ := List.cons.inj hserver
  have hanswer := requestMapData_at h q
  rw [← hx.server] at hanswer
  constructor
  · exact congrArg Prod.fst hanswer
  · exact hx.client
  · exact hx.lt
  · omega
  · omega
  · rfl
  · have hwindow : sentChunks s (q + 1) - c = (sentChunks s q - c) + (sentChunks s (q + 1) - sentChunks s q) := by omega
    have hfrom : ((c : ℤ) + (sentChunks s q - c : ℕ)) = sentChunks s q := by omega
    simp only [hanswer]
    rw [hx.toClient, hwindow, MapServer.sendWindow_add, hfrom]

/-- The chunk on its way is the one that the client waits for. -/
lemma Running.toClient_cons {x : MapExchange} {c q : ℕ} (hx : Running s x c q) {m : MapData} {rest : List MapData}
    (hm : x.toClient = m :: rest) :
    m = s.chunkMessage c ∧ c + 1 ≤ sentChunks s q ∧ rest = s.sendWindow (c + 1 : ℕ) (sentChunks s q - (c + 1)) := by
  have hmore : c < sentChunks s q := by
    by_contra hnone
    have hempty := hx.toClient
    rw [Nat.sub_eq_zero_of_le (by omega), hm] at hempty
    exact List.cons_ne_nil _ _ hempty
  have hclient := hx.toClient
  rw [hm, show sentChunks s q - c = sentChunks s q - (c + 1) + 1 by omega, sendWindow_head h hx.lt] at hclient
  obtain ⟨hfirst, hrest⟩ := List.cons.inj hclient
  exact ⟨hfirst, hmore, hrest⟩

lemma Running.process {x : MapExchange} {c q : ℕ} (hx : Running s x c q) {m : MapData} {rest : List MapData}
    (hm : x.toClient = m :: rest) : x.client.processMapData m =
      if c + 1 = numMapChunks s.mapData then some (clientDone s, [])
      else some (clientAt s (c + 1), [requestAt s (c + 1)]) := by
  rw [(hx.toClient_cons h hm).1, hx.client, processMapData_at h hx.lt]

/-- The client goes on to the next chunk. -/
lemma Running.receive {x : MapExchange} {c q : ℕ} (hx : Running s x c q) {m : MapData} {rest : List MapData}
    (hm : x.toClient = m :: rest) (hmore : c + 1 ≠ numMapChunks s.mapData) :
    Running s { x with
      client := clientAt s (c + 1)
      toServer := x.toServer ++ [requestAt s (c + 1)]
      toClient := rest } (c + 1) q := by
  obtain ⟨-, hsent, hrest⟩ := hx.toClient_cons h hm
  have hlt := hx.lt
  have hrequested := hx.requested
  constructor
  · exact hx.server
  · rfl
  · omega
  · omega
  · exact hsent
  · have hlist : List.range' q (c + 1 + 1 - q) = List.range' q (c + 1 - q) ++ [c + 1] := by
      rw [show c + 1 + 1 - q = c + 1 - q + 1 by omega, List.range'_1_concat, show q + (c + 1 - q) = c + 1 by omega]
    rw [hlist, List.map_append, ← hx.toServer]
    rfl
  · exact hrest

end serves

/-- Without a file everything is ignored. -/
lemma Finished.process {s : MapServer} {x : MapExchange} (hx : Finished s x) (m : MapData) :
    x.client.processMapData m = some (x.client, []) := by
  rw [MapClient.processMapData, hx.fileTemp]

lemma mapWindow_requestMapData (s : MapServer) (request : MapRequest) :
    (s.requestMapData request).1.mapWindow = s.mapWindow := by
  rw [MapServer.requestMapData.eq_def]
  cases request <;> dsimp only <;> split_ifs <;> rfl

/-- One request is answered by the window at most, and a chunk. -/
lemma length_requestMapData (s : MapServer) (request : MapRequest) :
    (s.requestMapData request).2.length ≤ s.mapWindow + 1 := by
  have hone := s.length_sendMapData
  have hwindow := s.length_sendWindow
  rw [MapServer.requestMapData.eq_def]
  cases request with
  | request7 =>
    dsimp only
    split_ifs
    · exact (hwindow _ _).trans (Nat.le_succ _)
    · exact Nat.zero_le _
  | request chunk =>
    dsimp only
    split_ifs
    · exact Nat.zero_le _
    · exact (hone chunk).trans (Nat.le_add_left 1 _)
    · rw [List.length_append]
      exact Nat.add_le_add (hwindow _ _) (hone _)
    · rw [List.nil_append]
      exact (hone _).trans (Nat.le_add_left 1 _)

/-- What is left to do. -/
def remaining (s : MapServer) (x : MapExchange) : ℕ :=
  (x.client.fileTemp.elim 0 fun written => numMapChunks s.mapData - written.length) * (s.mapWindow + 3) +
    x.toServer.length * (s.mapWindow + 2) + x.toClient.length

variable {s : MapServer} {x y : MapExchange}

lemma Fine.window (hx : Fine s x) : x.server.mapWindow = s.mapWindow := by
  obtain ⟨c, q, hx⟩ | hx := hx
  · rw [hx.server]
    rfl
  · exact hx.window

lemma Fine.step_server (h : s.Serves) (hx : Fine s x) {request : MapRequest} {rest : List MapRequest}
    (hrequest : x.toServer = request :: rest) :
    Fine s { x with
      server := (x.server.requestMapData request).1
      toServer := rest
      toClient := x.toClient ++ (x.server.requestMapData request).2 } := by
  obtain ⟨c, q, hx⟩ | hx := hx
  · exact .inl ⟨c, q + 1, hx.serve h hrequest⟩
  · exact .inr ⟨(mapWindow_requestMapData _ _).trans hx.window, hx.fileTemp, hx.file⟩

/-- What the client does with a message: it writes a chunk, or ignores it once it is done. -/
lemma Fine.step_client (h : s.Serves) (hx : Fine s x) {m : MapData} {rest : List MapData} (hm : x.toClient = m :: rest) :
    ∃ client requests, x.client.processMapData m = some (client, requests) ∧
      Fine s { x with client := client, toServer := x.toServer ++ requests, toClient := rest } ∧
      remaining s { x with client := client, toServer := x.toServer ++ requests, toClient := rest } < remaining s x := by
  obtain ⟨c, q, hx⟩ | hx := hx
  · have hprocess := hx.process h hm
    have hstill : numMapChunks s.mapData - c = numMapChunks s.mapData - (c + 1) + 1 := by
      have hlt := hx.lt
      omega
    have hbefore : remaining s x = (numMapChunks s.mapData - (c + 1)) * (s.mapWindow + 3) + (s.mapWindow + 3) +
        x.toServer.length * (s.mapWindow + 2) + (rest.length + 1) := by
      rw [remaining, hx.client, hm, ← Nat.succ_mul, Nat.succ_eq_add_one, ← hstill]
      simp [clientAt, length_mapChunks]
    by_cases hall : c + 1 = numMapChunks s.mapData
    · rw [if_pos hall] at hprocess
      refine ⟨_, _, hprocess, .inr ⟨?_, rfl, rfl⟩, ?_⟩
      · rw [hx.server]
        rfl
      · rw [hbefore, remaining, List.append_nil]
        simp only [clientDone, Option.elim_none, Nat.zero_mul]
        omega
    · rw [if_neg hall] at hprocess
      refine ⟨_, _, hprocess, .inl ⟨c + 1, q, hx.receive h hm hall⟩, ?_⟩
      rw [hbefore, remaining, List.length_append, List.length_singleton, Nat.succ_mul]
      simp only [clientAt, Option.elim_some, length_mapChunks]
      omega
  · refine ⟨_, _, hx.process m, .inr ⟨hx.window, hx.fileTemp, hx.file⟩, ?_⟩
    rw [remaining, remaining, List.append_nil, hm]
    exact Nat.lt_succ_self _

lemma remaining_server (hwindow : x.server.mapWindow = s.mapWindow) {request : MapRequest} {rest : List MapRequest}
    (hrequest : x.toServer = request :: rest) :
    remaining s { x with
      server := (x.server.requestMapData request).1
      toServer := rest
      toClient := x.toClient ++ (x.server.requestMapData request).2 } < remaining s x := by
  have hanswer := length_requestMapData x.server request
  rw [hwindow] at hanswer
  rw [remaining, remaining, hrequest, List.length_append, List.length_cons, Nat.succ_mul]
  dsimp only
  omega

lemma Fine.step (h : s.Serves) (hx : Fine s x) (hstep : x.Step y) : Fine s y ∧ remaining s y < remaining s x := by
  cases hstep with
  | server request rest hrequest => exact ⟨hx.step_server h hrequest, remaining_server hx.window hrequest⟩
  | client m rest client requests hm hprocess =>
    obtain ⟨client', requests', hprocess', hfine, hless⟩ := hx.step_client h hm
    obtain ⟨rfl, rfl⟩ := Prod.mk.inj (Option.some.inj (hprocess.symm.trans hprocess'))
    exact ⟨hfine, hless⟩

/-- The next chunk, or the request for it, is on its way. -/
lemma Running.not_stuck (h : s.Serves) {c q : ℕ} (hx : Running s x c q) : ∃ y, x.Step y := by
  cases hserver : x.toServer with
  | cons request rest => exact ⟨_, .server x request rest hserver⟩
  | nil =>
    cases hclient : x.toClient with
    | cons m rest =>
      obtain ⟨client, requests, hprocess, -⟩ := Fine.step_client h (.inl ⟨c, q, hx⟩) hclient
      exact ⟨_, .client x m rest client requests hclient hprocess⟩
    | nil =>
      have hrequests := congrArg List.length (hx.toServer.symm.trans hserver)
      rw [List.length_map, List.length_range', List.length_nil] at hrequests
      have hrequested := hx.requested
      obtain rfl : q = c + 1 := by omega
      have hlt := lt_sentChunks h c
      have hchunks := hx.toClient.symm.trans hclient
      rw [show sentChunks s (c + 1) - c = sentChunks s (c + 1) - (c + 1) + 1 by omega, sendWindow_head h hx.lt] at hchunks
      exact absurd hchunks (List.cons_ne_nil _ _)

lemma fine_start (h : s.Serves) : Fine s (start s) := .inl ⟨0, 0, running_start h⟩

lemma fine_of_run (h : s.Serves) {n : ℕ} (hrun : RunOf MapExchange.Step (start s) n y) : Fine s y :=
  hrun.invariant (fine_start h) fun _ _ hx hstep => (hx.step h hstep).1

lemma downloads (h : s.Serves) : Downloads (start s) s.mapData where
  noDivision n y hrun := by
    rintro ⟨m, rest, hm, hnone⟩
    obtain ⟨client, requests, hprocess, -⟩ := (fine_of_run h hrun).step_client h hm
    rw [hnone] at hprocess
    exact nomatch hprocess
  inOrder n y hrun written hwritten := by
    obtain ⟨c, q, hy⟩ | hy := fine_of_run h hrun
    · rw [hy.client] at hwritten ⊢
      obtain rfl := Option.some.inj hwritten
      rw [length_mapChunks]
      exact ⟨rfl, rfl⟩
    · rw [hy.fileTemp] at hwritten
      exact nomatch hwritten
  surplus n y hrun hfile z hstep := by
    obtain ⟨c, q, hy⟩ | hy := fine_of_run h hrun
    · rw [hy.client] at hfile
      exact Bool.noConfusion hfile
    · cases hstep with
      | server => rfl
      | client m rest client requests hm hprocess =>
        rw [hy.process] at hprocess
        exact (congrArg Prod.fst (Option.some.inj hprocess)).symm
  completes := by
    refine completes_of_measure (fine_start h) (fun _ _ hx hstep => (hx.step h hstep).1)
      (fun _ _ hx hstep => (hx.step h hstep).2) ?_
    rintro y (⟨c, q, hy⟩ | hy) hstuck
    · obtain ⟨z, hz⟩ := hy.not_stuck h
      exact absurd hz (hstuck z)
    · exact ⟨_, hy.file, rfl, flatten_all s.mapData⟩

/-- A 0.7 client that is promised no chunk for its request waits forever. -/
lemma not_completes (hsixup : s.sixup = true) (hwindow : s.mapWindow = 0) {final : MapExchange → Prop}
    (hfinal : ∀ x, final x → x.client.file.isSome = true) : ¬ Completes MapExchange.Step (start s) final := by
  intro hcompletes
  have hserver : (start s).toServer = [.request7] := by
    rw [start, hsixup]
    rfl
  have hanswer : ((start s).server.requestMapData .request7).2 = [] := by
    simp [start, MapServer.requestMapData.eq_def, hsixup, hwindow, MapServer.sendWindow]
  have hstep := MapExchange.Step.server (start s) .request7 [] hserver
  refine Bool.false_ne_true (hfinal _ (hcompletes.final 1 _ (.snoc .nil hstep) ?_))
  rintro z (⟨request, rest, hrequest⟩ | ⟨m, rest, client, requests, hm, -⟩)
  · exact List.cons_ne_nil _ _ hrequest.symm
  · rw [hanswer] at hm
    exact List.cons_ne_nil _ _ hm.symm

/-- The download completes unless a 0.7 client is served without a window. -/
theorem downloads_iff (s : MapServer) (hwindow : s.mapWindow ≤ 100) (hpos : 1 ≤ s.mapData.length)
    (hle : s.mapData.length ≤ 1024 * 1024 * 1024) :
    Downloads (start s) s.mapData ↔ (s.sixup = true → s.mapWindow ≠ 0) := by
  constructor
  · intro hdownloads hsixup hzero
    refine not_completes hsixup hzero ?_ hdownloads.completes
    rintro x ⟨written, hfile, -⟩
    rw [hfile]
    rfl
  · intro hpromise
    exact downloads ⟨hwindow, hpos, hle, hpromise⟩

/-- A 0.7 client and a small map. -/
def sixupServer (mapWindow : ℕ) : MapServer where
  sixup := true
  mapWindow := mapWindow
  fastDownload := true
  mapData := [1, 2, 3]
  mapCrc := 7
  nextMapChunk := 0

theorem downloads_sixupServer : Downloads (start (sixupServer 15)) [1, 2, 3] :=
  (downloads_iff (sixupServer 15) (by decide) (by decide) (by decide)).mpr fun _ => by decide

theorem not_downloads_sixupServer : ¬ Downloads (start (sixupServer 0)) [1, 2, 3] := by
  intro hdownloads
  refine not_completes rfl rfl ?_ hdownloads.completes
  rintro x ⟨written, hfile, -⟩
  rw [hfile]
  rfl

end MapExchange

end DDNet
