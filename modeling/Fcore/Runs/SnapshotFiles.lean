import Fcore.Calculus.AtomicFile
import Fcore.Runs.Restarts
import Mathlib.Tactic.DeriveCountable

/-!
The files of snapshots (`create_snapshot`, `load_snapshot`).

A snapshot is a copy of the memory, whose bytes are written to another file piece by piece; then
the file is replaced.  Meanwhile the memory changes, and writing can fail or the process stop.

* `SnapshotCodec`: the bytes of snapshots;
* `Host`, `FileHistory`: the API and a process with its files, where a snapshot takes many steps;
* `Shadows`: a site in whose history a snapshot is one step;
* `Follower`: the site of a host, and the site as it will be when the file is replaced;
* `snapshot_files_refine`: a process with its files is a process whose snapshots are made at
  once, and its file is always a whole one of them;
* `snapshot_file_lasts`: a snapshot is there until a later one is there in full.
-/

namespace Fcore

open Calculus

/-! ### Hosts -/

/-- `to_bytes`, and `archived_root` with `deserialize`. -/
structure SnapshotCodec (μ : Type) where
  toBytes : SnapshotData μ → List UInt8
  ofBytes : List UInt8 → SnapshotData μ
  ofBytes_toBytes : ∀ snapshot, ofBytes (toBytes snapshot) = snapshot

/-- The file that a snapshot is written to. -/
def tempPath (path : String) : String := path ++ ".tmp"

lemma path_ne_tempPath (path : String) : path ≠ tempPath path := by
  intro heq
  have hlength := congrArg String.length heq
  rw [tempPath, String.length_append] at hlength
  have htail : ".tmp".length = 4 := rfl
  omega

/-- The API with its running requests, one process with the files of its host, the publications
on their way to it, and what it has met at its last start and has still to sync. -/
structure Host (p : Process) where
  pool : Pool Call World
  state : p.State
  queue : List (Topic × List Message)
  writer : FileWriter String UInt8
  since : Option ℕ
  todo : List Tag
  loaded : Option (Found p)

section Hosts

variable {p : Process} (codec : SnapshotCodec p.Memory) (path : String)

/-- What `load_snapshot` finds. -/
def Host.snapshot (h : Host p) : Option (SnapshotData p.Memory) :=
  (h.writer.files path).map codec.ofBytes

/-- The memory that the process starts with. -/
def Host.toLoad (h : Host p) : p.Memory :=
  ((h.snapshot codec path).map SnapshotData.memory).getD p.blank

/-- The host of a site, beside other files. -/
def Site.host (x : Site p) (files : String → Option (List UInt8)) : Host p :=
  ⟨x.pool, x.state, x.queue,
    ⟨Function.update files path (x.snapshot.map codec.toBytes), none⟩, x.since, x.todo, x.loaded⟩

/-- The hosts that are reached. -/
inductive FileHistory (h₀ : Host p) : Host p → Prop where
  | start : FileHistory h₀ h₀
  | api {h : Host p} {pool : Pool Call World} (hrun : FileHistory h₀ h)
      (hreach : Reach Rule.any h.pool pool) :
      FileHistory h₀ { h with
        pool := pool
        queue := h.queue ++ published h.pool.state pool.state
        loaded := none }
  | receive {h : Host p} {e : Topic × List Message} {es : List (Topic × List Message)}
      {s' : p.State} (hrun : FileHistory h₀ h) (hqueue : h.queue = e :: es)
      (hhears : p.hears e.1 = true) (hhandle : p.Handle e.2 h.state s') :
      FileHistory h₀ { h with state := s', queue := es, loaded := none }
  | miss {h : Host p} {e : Topic × List Message} {es : List (Topic × List Message)}
      (hrun : FileHistory h₀ h) (hqueue : h.queue = e :: es) :
      FileHistory h₀ { h with queue := es, loaded := none }
  /-- `create_snapshot` copies the memory, and begins to write its bytes. -/
  | copy {h : Host p} {w : FileWriter String UInt8} (hrun : FileHistory h₀ h) (now : DateTime)
      (hstep : h.writer.step path (tempPath path)
        (.create (codec.toBytes (createSnapshot (p.memory h.state) now))) = some w) :
      FileHistory h₀ { h with writer := w }
  /-- `async_fs::write` writes the next bytes. -/
  | write {h : Host p} {w : FileWriter String UInt8} (hrun : FileHistory h₀ h) (n : ℕ)
      (hstep : h.writer.step path (tempPath path) (.write n) = some w) :
      FileHistory h₀ { h with writer := w }
  /-- `async_fs::rename`. -/
  | rename {h : Host p} {w : FileWriter String UInt8} (hrun : FileHistory h₀ h)
      (hstep : h.writer.step path (tempPath path) .rename = some w) :
      FileHistory h₀ { h with writer := w }
  /-- `create_snapshot` fails. -/
  | fail {h : Host p} {w : FileWriter String UInt8} (hrun : FileHistory h₀ h)
      (hstep : h.writer.step path (tempPath path) .stop = some w) :
      FileHistory h₀ { h with writer := w }
  /-- Another program writes to a file of its own. -/
  | other {h : Host p} {w : FileWriter String UInt8} (hrun : FileHistory h₀ h) (path' : String)
      (content : Option (List UInt8))
      (hstep : h.writer.step path (tempPath path) (.other path' content) = some w) :
      FileHistory h₀ { h with writer := w }
  /-- The process stops at any point, and starts again with `load_snapshot`. -/
  | load {h : Host p} {w : FileWriter String UInt8} {s : p.State} (hrun : FileHistory h₀ h)
      (hstep : h.writer.step path (tempPath path) .stop = some w)
      (hload : p.Load (h.toLoad codec path) h.state s) :
      FileHistory h₀ { h with
        state := s
        queue := []
        writer := w
        since := (h.snapshot codec path).map SnapshotData.timestamp
        todo := p.tags
        loaded := some ⟨h.toLoad codec path, h.state⟩ }
  /-- The next tag is synced. -/
  | sync {h : Host p} {tag : Tag} {tags : List Tag} {s' : p.State} {w' : World} {reply : Reply}
      (hrun : FileHistory h₀ h) (htodo : h.todo = tag :: tags) (hqueue : h.queue = [])
      (hexec : Exec Rule.any (getConnectionsHandler (p.syncRequest h.since tag)) h.pool.state
        (.ok reply) w')
      (hreceives : Receives p (published h.pool.state w') h.state s') :
      FileHistory h₀ { h with
        pool := { h.pool with state := w' }
        state := s'
        todo := tags }

end Hosts

/-! ### Sites beside hosts -/

variable {p : Process} {codec : SnapshotCodec p.Memory} {path : String} {x₀ x : Site p}
  {h : Host p}

/-- A site in a history, with all that the host has beside its files. -/
structure Shadows (x₀ x : Site p) (h : Host p) : Prop where
  history : History p x₀ x
  pool : x.pool = h.pool
  state : x.state = h.state
  queue : x.queue = h.queue
  since : x.since = h.since
  todo : x.todo = h.todo
  loaded : x.loaded = h.loaded

lemma Shadows.api {pool : Pool Call World} (hx : Shadows x₀ x h)
    (hreach : Reach Rule.any h.pool pool) :
    Shadows x₀ { x with
        pool := pool, queue := x.queue ++ published x.pool.state pool.state, loaded := none }
      { h with
        pool := pool, queue := h.queue ++ published h.pool.state pool.state, loaded := none } := by
  refine ⟨hx.history.api (hx.pool ▸ hreach), rfl, hx.state, ?_, hx.since, hx.todo, rfl⟩
  rw [hx.queue, hx.pool]

lemma Shadows.receive {e : Topic × List Message} {es : List (Topic × List Message)} {s' : p.State}
    (hx : Shadows x₀ x h) (hqueue : h.queue = e :: es) (hhears : p.hears e.1 = true)
    (hhandle : p.Handle e.2 h.state s') :
    Shadows x₀ { x with state := s', queue := es, loaded := none }
      { h with state := s', queue := es, loaded := none } :=
  ⟨hx.history.receive (hx.queue.trans hqueue) hhears (hx.state ▸ hhandle), hx.pool, rfl, rfl,
    hx.since, hx.todo, rfl⟩

lemma Shadows.miss {e : Topic × List Message} {es : List (Topic × List Message)}
    (hx : Shadows x₀ x h) (hqueue : h.queue = e :: es) :
    Shadows x₀ { x with queue := es, loaded := none } { h with queue := es, loaded := none } :=
  ⟨hx.history.miss (hx.queue.trans hqueue), hx.pool, hx.state, rfl, hx.since, hx.todo, rfl⟩

lemma Shadows.sync {tag : Tag} {tags : List Tag} {s' : p.State} {w' : World} {reply : Reply}
    (hx : Shadows x₀ x h) (htodo : h.todo = tag :: tags) (hqueue : h.queue = [])
    (hexec : Exec Rule.any (getConnectionsHandler (p.syncRequest h.since tag)) h.pool.state
      (.ok reply) w')
    (hreceives : Receives p (published h.pool.state w') h.state s') :
    Shadows x₀ { x with pool := { x.pool with state := w' }, state := s', todo := tags }
      { h with pool := { h.pool with state := w' }, state := s', todo := tags } := by
  rw [← hx.since, ← hx.pool] at hexec
  rw [← hx.pool, ← hx.state] at hreceives
  refine ⟨hx.history.sync (hx.todo.trans htodo) (hx.queue.trans hqueue) hexec hreceives, ?_, rfl,
    hx.queue, hx.since, rfl, hx.loaded⟩
  rw [hx.pool]

/-- The files are not seen. -/
lemma Shadows.writer {w : FileWriter String UInt8} (hx : Shadows x₀ x h) :
    Shadows x₀ x { h with writer := w } :=
  ⟨hx.history, hx.pool, hx.state, hx.queue, hx.since, hx.todo, hx.loaded⟩

/-- A site that follows a host, and a second one for which the snapshot that is being written has
been made when the memory was copied. -/
structure Follower (codec : SnapshotCodec p.Memory) (path : String) (x₀ x : Site p) (h : Host p) :
    Prop where
  shadows : Shadows x₀ x h
  files : ∃ c : Cell UInt8, Refines path (tempPath path) c h.writer ∧
    c.value = x.snapshot.map codec.toBytes ∧
    ∀ bytes, c.next = some bytes →
      ∃ y, Shadows x₀ y h ∧ y.snapshot.map codec.toBytes = some bytes

/-- What a restart loads is the snapshot of the site. -/
lemma Follower.snapshot_eq (hx : Follower codec path x₀ x h) :
    h.snapshot codec path = x.snapshot := by
  obtain ⟨c, hc, hvalue, -⟩ := hx.files
  rw [Host.snapshot, hc.value, hvalue, Option.map_map]
  have hid : codec.ofBytes ∘ codec.toBytes = id := funext codec.ofBytes_toBytes
  rw [hid, Option.map_id_apply]

lemma Follower.toLoad_eq (hx : Follower codec path x₀ x h) : h.toLoad codec path = x.toLoad := by
  rw [Host.toLoad, Site.toLoad, hx.snapshot_eq]
  cases x.snapshot with
  | none => rfl
  | some snapshot => rfl

/-- A step that leaves the files alone. -/
lemma Follower.beside {h' : Host p} {x' : Site p} (hx : Follower codec path x₀ x h)
    (hx' : Shadows x₀ x' h')
    (hy : ∀ y, Shadows x₀ y h → ∃ y', Shadows x₀ y' h' ∧ y'.snapshot = y.snapshot)
    (hwriter : h'.writer = h.writer) (hsnapshot : x'.snapshot = x.snapshot) :
    Follower codec path x₀ x' h' := by
  obtain ⟨c, hc, hvalue, hnext⟩ := hx.files
  refine ⟨hx', c, hwriter ▸ hc, hvalue.trans (by rw [hsnapshot]), fun bytes hbytes => ?_⟩
  obtain ⟨y, hshadows, hsame⟩ := hnext bytes hbytes
  obtain ⟨y', hshadows', hsnapshot'⟩ := hy y hshadows
  exact ⟨y', hshadows', by rw [hsnapshot', hsame]⟩

/-- A step of the writer that neither begins nor ends a snapshot. -/
lemma Follower.still {w : FileWriter String UInt8} {e : FileEvent String UInt8}
    (hx : Follower codec path x₀ x h) (hstep : h.writer.step path (tempPath path) e = some w)
    (hstill : ∀ c : Cell UInt8, (c.step e).value = c.value ∧
      ∀ bytes, (c.step e).next = some bytes → c.next = some bytes) :
    Follower codec path x₀ x { h with writer := w } := by
  obtain ⟨c, hc, hvalue, hnext⟩ := hx.files
  refine ⟨hx.shadows.writer, c.step e, hc.step (path_ne_tempPath path) hstep,
    (hstill c).1.trans hvalue, fun bytes hbytes => ?_⟩
  obtain ⟨y, hshadows, hsame⟩ := hnext bytes ((hstill c).2 bytes hbytes)
  exact ⟨y, hshadows.writer, hsame⟩

/-- The memory is copied: the second site makes a snapshot. -/
lemma Follower.copy {w : FileWriter String UInt8} {now : DateTime}
    (hx : Follower codec path x₀ x h)
    (hstep : h.writer.step path (tempPath path)
      (.create (codec.toBytes (createSnapshot (p.memory h.state) now))) = some w) :
    Follower codec path x₀ x { h with writer := w } := by
  obtain ⟨c, hc, hvalue, -⟩ := hx.files
  refine ⟨hx.shadows.writer, _, hc.step (path_ne_tempPath path) hstep, hvalue,
    fun bytes hbytes => ?_⟩
  obtain rfl := Option.some.inj hbytes
  refine ⟨_, ⟨hx.shadows.history.snap now, hx.shadows.pool, hx.shadows.state, hx.shadows.queue,
    hx.shadows.since, hx.shadows.todo, hx.shadows.loaded⟩, ?_⟩
  rw [Option.map_some, hx.shadows.state]

/-- The file is replaced: the second site is the one to follow from now on. -/
lemma Follower.rename {w : FileWriter String UInt8} (hx : Follower codec path x₀ x h)
    (hstep : h.writer.step path (tempPath path) .rename = some w) :
    ∃ y, Follower codec path x₀ y { h with writer := w } := by
  obtain ⟨c, hc, -, hnext⟩ := hx.files
  obtain ⟨bytes, hbytes⟩ := hc.next_of_rename hstep
  obtain ⟨y, hshadows, hsame⟩ := hnext bytes hbytes
  refine ⟨y, hshadows.writer, _, hc.step (path_ne_tempPath path) hstep, ?_,
    fun bytes' hbytes' => (by cases hbytes')⟩
  exact hbytes.trans hsame.symm

/-- A start forgets the snapshot that was being written. -/
lemma Follower.load {w : FileWriter String UInt8} {s : p.State} (hx : Follower codec path x₀ x h)
    (hstep : h.writer.step path (tempPath path) .stop = some w)
    (hload : p.Load (h.toLoad codec path) h.state s) :
    ∃ x', Follower codec path x₀ x' { h with
      state := s
      queue := []
      writer := w
      since := (h.snapshot codec path).map SnapshotData.timestamp
      todo := p.tags
      loaded := some ⟨h.toLoad codec path, h.state⟩ } := by
  rw [hx.toLoad_eq, ← hx.shadows.state] at hload
  obtain ⟨c, hc, hvalue, -⟩ := hx.files
  refine ⟨_, ⟨hx.shadows.history.load hload, hx.shadows.pool, rfl, rfl, ?_, rfl, ?_⟩, _,
    hc.step (path_ne_tempPath path) hstep, hvalue, fun bytes hbytes => (by cases hbytes)⟩
  · rw [hx.snapshot_eq]
  · rw [hx.toLoad_eq, hx.shadows.state]

/-- Every host that is reached is followed. -/
lemma FileHistory.followed {h₀ : Host p} (hrun : FileHistory codec path h₀ h)
    (hstart : Follower codec path x₀ x₀ h₀) : ∃ x, Follower codec path x₀ x h := by
  induction hrun with
  | start => exact ⟨x₀, hstart⟩
  | api _ hreach ih =>
      obtain ⟨x, hx⟩ := ih
      exact ⟨_, hx.beside (hx.shadows.api hreach) (fun y hy => ⟨_, hy.api hreach, rfl⟩) rfl rfl⟩
  | receive _ hqueue hhears hhandle ih =>
      obtain ⟨x, hx⟩ := ih
      exact ⟨_, hx.beside (hx.shadows.receive hqueue hhears hhandle)
        (fun y hy => ⟨_, hy.receive hqueue hhears hhandle, rfl⟩) rfl rfl⟩
  | miss _ hqueue ih =>
      obtain ⟨x, hx⟩ := ih
      exact ⟨_, hx.beside (hx.shadows.miss hqueue) (fun y hy => ⟨_, hy.miss hqueue, rfl⟩) rfl rfl⟩
  | copy _ now hstep ih =>
      obtain ⟨x, hx⟩ := ih
      exact ⟨x, hx.copy hstep⟩
  | write _ n hstep ih =>
      obtain ⟨x, hx⟩ := ih
      exact ⟨x, hx.still hstep fun c => ⟨rfl, fun _ hbytes => hbytes⟩⟩
  | rename _ hstep ih =>
      obtain ⟨x, hx⟩ := ih
      exact hx.rename hstep
  | fail _ hstep ih =>
      obtain ⟨x, hx⟩ := ih
      exact ⟨x, hx.still hstep fun c => ⟨rfl, fun _ hbytes => by cases hbytes⟩⟩
  | other _ path' content hstep ih =>
      obtain ⟨x, hx⟩ := ih
      exact ⟨x, hx.still hstep fun c => ⟨rfl, fun _ hbytes => hbytes⟩⟩
  | load _ hstep hload ih =>
      obtain ⟨x, hx⟩ := ih
      exact hx.load hstep hload
  | sync _ htodo hqueue hexec hreceives ih =>
      obtain ⟨x, hx⟩ := ih
      exact ⟨_, hx.beside (hx.shadows.sync htodo hqueue hexec hreceives)
        (fun y hy => ⟨_, hy.sync htodo hqueue hexec hreceives, rfl⟩) rfl rfl⟩

/-- **Snapshot files are as good as snapshots made at once**: a process whose snapshots are
written piece by piece, with failures and stops at any point, is always in a state of a history
in which each snapshot is one step, and its file holds the whole snapshot of that history. -/
theorem snapshot_files_refine (codec : SnapshotCodec p.Memory) (path : String) (x₀ : Site p)
    (files : String → Option (List UInt8))
    (hrun : FileHistory codec path (x₀.host codec path files) h) :
    ∃ x, History p x₀ x ∧ x.pool = h.pool ∧ x.state = h.state ∧ x.queue = h.queue ∧
      h.writer.files path = x.snapshot.map codec.toBytes ∧
      x.since = h.since ∧ x.todo = h.todo ∧ x.loaded = h.loaded := by
  have hstart : Follower codec path x₀ x₀ (x₀.host codec path files) := by
    refine ⟨⟨.start, rfl, rfl, rfl, rfl, rfl, rfl⟩, _, Refines.idle rfl, ?_,
      fun bytes hbytes => (by cases hbytes)⟩
    exact Function.update_self _ _ _
  obtain ⟨x, hx⟩ := hrun.followed hstart
  obtain ⟨c, hc, hvalue, -⟩ := hx.files
  exact ⟨x, hx.shadows.history, hx.shadows.pool, hx.shadows.state, hx.shadows.queue,
    hc.value.trans hvalue, hx.shadows.since, hx.shadows.todo, hx.shadows.loaded⟩

/-! ### A host of the auth service -/

instance countableChar : Countable Char :=
  Function.Injective.countable (f := Char.toNat) fun _ _ h => Char.toNat_inj.mp h

instance countableString : Countable String :=
  Function.Injective.countable (f := String.toList) fun _ _ h => String.toList_injective h

instance countableBitVec (n : ℕ) : Countable (BitVec n) :=
  Function.Injective.countable (f := BitVec.toFin) fun _ _ h => BitVec.eq_of_toFin_eq h

instance countableUInt8 : Countable UInt8 :=
  Function.Injective.countable (f := UInt8.toBitVec) fun _ _ h => UInt8.toBitVec_inj.mp h

deriving instance Countable for IpAddr, IpAddrMask, WgKeys, WgParam, Tag, Proto, Base

/-- There are enough bytes, even where a part of one file is another file. -/
lemma nonempty_snapshotCodec : Nonempty (SnapshotCodec (Connections Base)) := by
  have hmemory : Countable (Connections Base) :=
    Function.Injective.countable (f := AList.entries) fun _ _ h => AList.ext h
  have hsnapshot : Countable (SnapshotData (Connections Base)) := by
    refine Function.Injective.countable (f := fun x => (x.timestamp, x.memory)) ?_
    rintro ⟨t, m⟩ ⟨t', m'⟩ heq
    obtain ⟨rfl, rfl⟩ := Prod.mk.inj heq
    rfl
  obtain ⟨number, hnumber⟩ := exists_injective_nat (SnapshotData (Connections Base))
  have hbytes : Function.Injective fun x => List.replicate (number x) (0 : UInt8) := by
    intro x y heq
    have hlength := congrArg List.length heq
    simp only [List.length_replicate] at hlength
    exact hnumber hlength
  have hsome : Nonempty (SnapshotData (Connections Base)) := ⟨⟨0, ∅⟩⟩
  exact ⟨⟨_, Function.invFun _, Function.leftInverse_invFun hbytes⟩⟩

/-- A snapshot is made. -/
lemma fileHistory_snapshot {codec : SnapshotCodec p.Memory} {h₀ : Host p}
    (hrun : FileHistory codec path h₀ h) (hidle : h.writer.rest = none) (now : DateTime) :
    ∃ h', FileHistory codec path h₀ h' ∧ h'.state = h.state ∧ h'.writer.rest = none ∧
      h'.writer.files path = some (codec.toBytes (createSnapshot (p.memory h.state) now)) := by
  obtain ⟨w₁, w₂, w₃, hcreate, hwrite, hrename, hidle', hfile⟩ :=
    FileWriter.exists_replace (path_ne_tempPath path) hidle
      (codec.toBytes (createSnapshot (p.memory h.state) now))
  exact ⟨_, ((hrun.copy now hcreate).write _ hwrite).rename hrename, rfl, hidle', hfile⟩

/-- The host of the auth service without files. -/
def sampleHost (codec : SnapshotCodec (Connections Base)) : Host sampleAuth.process :=
  sampleStart.host codec "auth.snapshot" fun _ => none

/-- The service has received a connection. -/
lemma fileHistory_created (codec : SnapshotCodec (Connections Base)) :
    ∃ h, FileHistory codec "auth.snapshot" (sampleHost codec) h ∧ h.state = createdMemory ∧
      h.writer.rest = none := by
  have hrun : (runWith Rule.any creation sampleStart.pool).map
      (fun pool => published World.empty pool.state) = some [(.auth, [createMessage])] := by
    decide +kernel
  obtain ⟨pool, hpool, hpub⟩ := Option.map_eq_some_iff.mp hrun
  have hstart : FileHistory codec "auth.snapshot" (sampleHost codec) (sampleHost codec) := .start
  have hapi := hstart.api (reach_runWith .refl hpool)
  have hqueue : (sampleHost codec).queue ++ published (sampleHost codec).pool.state pool.state =
      [(.auth, [createMessage])] := hpub
  have hhandle : sampleAuth.process.Handle [createMessage] (sampleHost codec).state createdMemory :=
    ⟨[(createMessage, 11000000000)], rfl, rfl⟩
  exact ⟨_, hapi.receive hqueue rfl hhandle, rfl, rfl⟩

/-- The file has the connection, while the next snapshot is being written. -/
theorem snapshot_files_refine_auth :
    ∃ (codec : SnapshotCodec (Connections Base)) (h : Host sampleAuth.process)
        (x : Site sampleAuth.process),
      FileHistory codec "auth.snapshot" (sampleHost codec) h ∧ h.writer.rest.isSome = true ∧
      History sampleAuth.process sampleStart x ∧
      x.snapshot = some (createSnapshot createdMemory 12000000000) ∧
      h.writer.files "auth.snapshot" = x.snapshot.map codec.toBytes := by
  obtain ⟨codec⟩ := nonempty_snapshotCodec
  obtain ⟨h, hrun, hstate, hidle⟩ := fileHistory_created codec
  obtain ⟨h', hrun', -, hidle', hfile⟩ := fileHistory_snapshot hrun hidle 12000000000
  have hcopied := hrun'.copy 13000000000 (FileWriter.step_create hidle' _)
  obtain ⟨x, hx, -, -, -, hsame, -, -, -⟩ :=
    snapshot_files_refine codec "auth.snapshot" sampleStart (fun _ => none) hcopied
  refine ⟨codec, _, x, hcopied, rfl, hx, ?_, hsame⟩
  have hkept : x.snapshot.map codec.toBytes = h'.writer.files "auth.snapshot" :=
    hsame.symm.trans (Function.update_of_ne (path_ne_tempPath "auth.snapshot") (some [])
      h'.writer.files)
  rw [hfile, hstate] at hkept
  obtain ⟨snapshot, hsnapshot, hbytes⟩ := Option.map_eq_some_iff.mp hkept
  have heq : snapshot = createSnapshot createdMemory 12000000000 :=
    calc snapshot
      _ = codec.ofBytes (codec.toBytes snapshot) := (codec.ofBytes_toBytes snapshot).symm
      _ = codec.ofBytes (codec.toBytes (createSnapshot createdMemory 12000000000)) :=
          congrArg codec.ofBytes hbytes
      _ = createSnapshot createdMemory 12000000000 := codec.ofBytes_toBytes _
  rw [hsnapshot, heq]

/-! ### What a file lasts through -/

/-- The bytes of a snapshot of a host on the way from one to another. -/
def Copied (codec : SnapshotCodec p.Memory) (path : String) (h₀ h : Host p) (bytes : List UInt8) :
    Prop :=
  ∃ g now, FileHistory codec path h₀ g ∧ FileHistory codec path g h ∧
    bytes = codec.toBytes (createSnapshot (p.memory g.state) now)

/-- What happens in a step also happens after all that has led to it. -/
lemma Copied.later {h₀ h' : Host p} {bytes : List UInt8} (hcopied : Copied codec path h₀ h bytes)
    (hlater : ∀ g, FileHistory codec path g h → FileHistory codec path g h') :
    Copied codec path h₀ h' bytes := by
  obtain ⟨g, now, hbefore, hafter, hbytes⟩ := hcopied
  exact ⟨g, now, hbefore, hlater g hafter, hbytes⟩

/-- The file is as at the start or the copy of a later memory, and only such a copy comes next. -/
structure Lasting (codec : SnapshotCodec p.Memory) (path : String) (h₀ h : Host p)
    (c : Cell UInt8) : Prop where
  refines : Refines path (tempPath path) c h.writer
  value : c.value = h₀.writer.files path ∨
    ∃ bytes, c.value = some bytes ∧ Copied codec path h₀ h bytes
  next : ∀ bytes, c.next = some bytes → Copied codec path h₀ h bytes

/-- The file that was there or the copy is so in a later state, too. -/
lemma Lasting.value_later {h₀ h' : Host p} {c : Cell UInt8} (hc : Lasting codec path h₀ h c)
    (hlater : ∀ g, FileHistory codec path g h → FileHistory codec path g h') :
    c.value = h₀.writer.files path ∨
      ∃ bytes, c.value = some bytes ∧ Copied codec path h₀ h' bytes :=
  hc.value.imp_right fun ⟨bytes, hbytes, hcopied⟩ => ⟨bytes, hbytes, hcopied.later hlater⟩

/-- A step of the writer, after which only copies come next. -/
lemma Lasting.step {h₀ h' : Host p} {c : Cell UInt8} {e : FileEvent String UInt8}
    (hc : Lasting codec path h₀ h c) (hstep : h.writer.step path (tempPath path) e = some h'.writer)
    (hlater : ∀ g, FileHistory codec path g h → FileHistory codec path g h')
    (hnext : ∀ bytes, (c.step e).next = some bytes → Copied codec path h₀ h' bytes) :
    ∃ c, Lasting codec path h₀ h' c := by
  refine ⟨c.step e, hc.refines.step (path_ne_tempPath path) hstep, ?_, hnext⟩
  cases e with
  | rename =>
      obtain ⟨bytes, hbytes⟩ := hc.refines.next_of_rename hstep
      exact .inr ⟨bytes, hbytes, (hc.next bytes hbytes).later hlater⟩
  | create | write | stop | other => exact hc.value_later hlater

/-- A step beside the files. -/
lemma Lasting.beside {h₀ h' : Host p} {c : Cell UInt8} (hc : Lasting codec path h₀ h c)
    (hlater : ∀ g, FileHistory codec path g h → FileHistory codec path g h')
    (hwriter : h'.writer = h.writer) : Lasting codec path h₀ h' c :=
  ⟨hwriter ▸ hc.refines, hc.value_later hlater, fun bytes hbytes =>
    (hc.next bytes hbytes).later hlater⟩

/-- **A snapshot lasts until a later one is whole**: from when a snapshot has been made on, whatever
is written, fails or stops, the file is the one that was there, or the whole snapshot of a memory
that the process has had on the way. -/
theorem snapshot_file_lasts {h₀ : Host p} (hidle : h₀.writer.rest = none)
    (hrun : FileHistory codec path h₀ h) :
    h.writer.files path = h₀.writer.files path ∨
      ∃ g now, FileHistory codec path h₀ g ∧ FileHistory codec path g h ∧
        h.writer.files path = some (codec.toBytes (createSnapshot (p.memory g.state) now)) := by
  have hlasting : ∃ c, Lasting codec path h₀ h c := by
    induction hrun with
    | start => exact ⟨_, .idle hidle, .inl rfl, fun bytes hbytes => by cases hbytes⟩
    | api _ hreach ih =>
        obtain ⟨c, hc⟩ := ih
        exact ⟨c, hc.beside (fun _ hg => hg.api hreach) rfl⟩
    | receive _ hqueue hhears hhandle ih =>
        obtain ⟨c, hc⟩ := ih
        exact ⟨c, hc.beside (fun _ hg => hg.receive hqueue hhears hhandle) rfl⟩
    | miss _ hqueue ih =>
        obtain ⟨c, hc⟩ := ih
        exact ⟨c, hc.beside (fun _ hg => hg.miss hqueue) rfl⟩
    | copy hrun now hstep ih =>
        obtain ⟨c, hc⟩ := ih
        refine hc.step hstep (fun _ hg => hg.copy now hstep) fun bytes hbytes => ?_
        obtain rfl := Option.some.inj hbytes
        exact ⟨_, now, hrun, .copy .start now hstep, rfl⟩
    | write _ n hstep ih =>
        obtain ⟨c, hc⟩ := ih
        have hlater := fun g (hg : FileHistory codec path g _) => hg.write n hstep
        exact hc.step hstep hlater fun bytes hbytes => (hc.next bytes hbytes).later hlater
    | rename _ hstep ih =>
        obtain ⟨c, hc⟩ := ih
        exact hc.step hstep (fun _ hg => hg.rename hstep) fun bytes hbytes => by cases hbytes
    | fail _ hstep ih =>
        obtain ⟨c, hc⟩ := ih
        exact hc.step hstep (fun _ hg => hg.fail hstep) fun bytes hbytes => by cases hbytes
    | other _ path' content hstep ih =>
        obtain ⟨c, hc⟩ := ih
        have hlater := fun g (hg : FileHistory codec path g _) => hg.other path' content hstep
        exact hc.step hstep hlater fun bytes hbytes => (hc.next bytes hbytes).later hlater
    | load _ hstep hload ih =>
        obtain ⟨c, hc⟩ := ih
        exact hc.step hstep (fun _ hg => hg.load hstep hload) fun bytes hbytes => by cases hbytes
    | sync _ htodo hqueue hexec hreceives ih =>
        obtain ⟨c, hc⟩ := ih
        exact ⟨c, hc.beside (fun _ hg => hg.sync htodo hqueue hexec hreceives) rfl⟩
  obtain ⟨c, hc⟩ := hlasting
  rw [hc.refines.value]
  rcases hc.value with hsame | ⟨bytes, hbytes, g, now, hbefore, hafter, rfl⟩
  · exact .inl hsame
  · exact .inr ⟨g, now, hbefore, hafter, hbytes⟩

/-- A snapshot, and a second one that is not finished. -/
theorem snapshot_file_lasts_auth :
    ∃ (codec : SnapshotCodec (Connections Base)) (h h' : Host sampleAuth.process),
      FileHistory codec "auth.snapshot" (sampleHost codec) h ∧
      h.writer.files "auth.snapshot" =
        some (codec.toBytes (createSnapshot createdMemory 12000000000)) ∧
      FileHistory codec "auth.snapshot" h h' ∧
      (h'.writer.files "auth.snapshot" = h.writer.files "auth.snapshot" ∨
        ∃ g now, FileHistory codec "auth.snapshot" h g ∧ FileHistory codec "auth.snapshot" g h' ∧
          h'.writer.files "auth.snapshot" =
            some (codec.toBytes (createSnapshot (sampleAuth.process.memory g.state) now))) := by
  obtain ⟨codec⟩ := nonempty_snapshotCodec
  obtain ⟨h, hrun, hstate, hidle⟩ := fileHistory_created codec
  obtain ⟨h', hrun', -, hidle', hfile⟩ := fileHistory_snapshot hrun hidle 12000000000
  have hstart : FileHistory codec "auth.snapshot" h' h' := .start
  have hcopied := hstart.copy 13000000000 (FileWriter.step_create hidle' _)
  have hfailed := (hcopied.write 3 rfl).fail rfl
  rw [hstate] at hfile
  exact ⟨codec, h', _, hrun', hfile, hfailed, snapshot_file_lasts hidle' hfailed⟩

end Fcore
