import TelemetryPlatform.CwlSplit.Delivery

/-!
# What each call of a re-ingestion sends

The transform keeps the byte records that are still to be delivered, not where
they stood in the list. `Put` names the positions that a call sends. A chunk is
sent once, and each further call sends what the call before it failed to deliver
(`ChunkPuts`); from this the records delivered, the records left and the number
of calls are read off by induction on the calls.
-/

namespace CwlSplit

open Python Interaction

variable {config : Config} {records : List Bytes}

section Puts

/-- One call: the positions of the list that it sends and the results it gets back. -/
structure Put where
  positions : List Nat
  results : List PutResult

namespace Put

/-- A result for every record sent. -/
def Answered (put : Put) : Prop := put.results.length = put.positions.length

/-- The positions the call delivered. -/
def acknowledged (put : Put) : List Nat :=
  ((put.positions.zip put.results).filter fun sent => !sent.2.Failed).map Prod.fst

/-- The positions the call failed to deliver. -/
def failed (put : Put) : List Nat :=
  ((put.positions.zip put.results).filter fun sent => sent.2.Failed).map Prod.fst

/-- The records at some positions. -/
def recordsAt (records : List Bytes) (positions : List Nat) : List Bytes :=
  positions.map fun position => records.getD position []

/-- The call and its reply. -/
def event (config : Config) (records : List Bytes) (put : Put) : TransformEvent :=
  ⟨.putRecordBatch config.deliveryStreamName (recordsAt records put.positions),
    .ok ⟨some (put.results.countP fun result => result.Failed), some put.results⟩⟩

variable {put : Put}

theorem map_fst_zip (answered : put.Answered) :
    (put.positions.zip put.results).map Prod.fst = put.positions := by
  apply List.map_fst_zip
  rw [answered]

/-- Every position of a call was either delivered or has failed. -/
theorem acknowledged_append_failed (answered : put.Answered) :
    (put.acknowledged ++ put.failed).Perm put.positions := by
  have split := List.filter_append_perm
    (fun sent : Nat × PutResult => decide sent.2.Failed) (put.positions.zip put.results)
  have mapped := split.map Prod.fst
  rw [List.map_append, map_fst_zip answered] at mapped
  exact List.perm_append_comm.trans mapped

theorem failed_sublist (answered : put.Answered) : put.failed.Sublist put.positions := by
  have sublist := (List.filter_sublist (l := put.positions.zip put.results)
    (p := fun sent => decide sent.2.Failed)).map Prod.fst
  rw [map_fst_zip answered] at sublist
  exact sublist

theorem length_failed (answered : put.Answered) :
    put.failed.length = put.results.countP fun result => result.Failed := by
  have snds : (put.positions.zip put.results).map Prod.snd = put.results := by
    apply List.map_snd_zip
    exact Nat.le_of_eq answered
  conv_rhs => rw [← snds, List.countP_map]
  rw [failed, List.length_map, ← List.countP_eq_length_filter]
  rfl

variable (records) in
/-- The records that the program keeps are the records at the failed positions. -/
theorem failedOf_recordsAt (answered : put.Answered) :
    failedOf (recordsAt records put.positions) put.results =
      .ok (recordsAt records put.failed) := by
  have sameLength : put.results.length = (recordsAt records put.positions).length := by
    rw [recordsAt, List.length_map]
    exact answered
  rw [failedOf_eq sameLength, recordsAt, failed, recordsAt, List.zip_map_left, List.filter_map,
    List.map_map, List.map_map]
  rfl

end Put

/-- A call whose reply lists a result for every record and counts the failed ones. -/
def Answers (event : TransformEvent) : Prop :=
  match event with
  | ⟨.putRecordBatch _ records, reply⟩ =>
      ∃ results : List PutResult, results.length = records.length ∧
        reply = .ok ⟨some (results.countP fun result => result.Failed), some results⟩
  | _ => True

end Puts

section Chunks

/--
The calls for one chunk with `attempts` left, and the positions still undelivered
when the program leaves it.
-/
inductive ChunkPuts : Nat → List Nat → List Put → List Nat → Prop
  | delivered {attempts : Nat} {put : Put} (answered : put.Answered) (clean : put.failed = []) :
      ChunkPuts (attempts + 1) put.positions [put] []
  | exhausted {put : Put} (answered : put.Answered) (remaining : put.failed ≠ []) :
      ChunkPuts 1 put.positions [put] put.failed
  | again {attempts : Nat} {put : Put} {puts : List Put} {left : List Nat}
      (answered : put.Answered) (remaining : put.failed ≠ [])
      (retried : ChunkPuts (attempts + 1) put.failed puts left) :
      ChunkPuts (attempts + 2) put.positions (put :: puts) left

/-- A run of a chunk is a sequence of calls, and raises when positions are left. -/
theorem chunkPuts_of_putChunk {attempts : Nat} {positions : List Nat} {log : List TransformEvent}
    {outcome : Except Exc Unit} (positive : 0 < attempts)
    (ran : (putChunk config attempts (Put.recordsAt records positions)).Runs log outcome)
    (answered : ∀ event ∈ log, Answers event) :
    ∃ puts left, ChunkPuts attempts positions puts left ∧
      log = puts.map (Put.event config records) ∧
      (left = [] ∧ outcome = .ok () ∨ left ≠ [] ∧ ∃ error, outcome = .error error) := by
  induction attempts generalizing positions log with
  | zero => omega
  | succ attempts ih =>
      simp only [putChunk, Program.perform_bind, Program.runs_call] at ran
      rcases ran with ⟨reply, rest, rfl, ran⟩
      rcases answered _ List.mem_cons_self with ⟨results, sameLength, rfl⟩
      have counted : Put.Answered ⟨positions, results⟩ := by
        simpa [Put.Answered, Put.recordsAt] using sameLength
      have failedCount := Put.length_failed counted
      simp only [Program.ofExcept, Program.ret_bind, Option.getD_some, Program.pure_eq_ret] at ran
      by_cases done : (results.countP fun result => decide result.Failed) = 0
      · simp only [done, if_true, Program.runs_ret] at ran
        rcases ran with ⟨rfl, rfl⟩
        have clean : (Put.mk positions results).failed = [] := by
          apply List.eq_nil_of_length_eq_zero
          rw [failedCount, done]
        exact ⟨[⟨positions, results⟩], [], .delivered counted clean, rfl, Or.inl ⟨rfl, rfl⟩⟩
      · have remaining : (Put.mk positions results).failed ≠ [] := by
          intro clean
          simp only [clean, List.length_nil] at failedCount
          omega
        have kept := Put.failedOf_recordsAt records counted
        simp only [done, if_false, kept, Program.ret_bind] at ran
        by_cases last : attempts = 0
        · simp only [last, if_true, Program.throw_eq_raise, Program.raise_bind,
            Program.runs_raise] at ran
          rcases ran with ⟨rfl, rfl⟩
          subst last
          exact ⟨[⟨positions, results⟩], _, .exhausted counted remaining, rfl,
            Or.inr ⟨remaining, _, rfl⟩⟩
        · simp only [last, if_false] at ran
          rcases ih (by omega) ran fun event eventMem =>
            answered event (List.mem_cons_of_mem _ eventMem)
            with ⟨puts, left, retried, rfl, ending⟩
          rcases Nat.exists_eq_succ_of_ne_zero last with ⟨fewer, rfl⟩
          exact ⟨⟨positions, results⟩ :: puts, left, .again counted remaining retried, rfl, ending⟩

namespace ChunkPuts

variable {attempts : Nat} {positions left : List Nat} {puts : List Put}

theorem calls (sent : ChunkPuts attempts positions puts left) :
    1 ≤ puts.length ∧ puts.length ≤ attempts ∧ (left ≠ [] → puts.length = attempts) := by
  induction sent with
  | delivered answered clean => simp
  | exhausted answered remaining => simp
  | again answered remaining retried ih =>
      refine ⟨by simp, ?_, ?_⟩
      · simp only [List.length_cons]
        omega
      · intro undelivered
        simp only [List.length_cons, ih.2.2 undelivered]

/-- The calls deliver each position once, but for those that are left. -/
theorem delivers (sent : ChunkPuts attempts positions puts left) :
    (puts.flatMap Put.acknowledged ++ left).Perm positions := by
  induction sent with
  | @delivered attempts put answered clean =>
      have split := Put.acknowledged_append_failed answered
      simpa [clean] using split
  | @exhausted put answered remaining =>
      simpa using Put.acknowledged_append_failed answered
  | @again attempts put puts left answered remaining retried ih =>
      rw [List.flatMap_cons, List.append_assoc]
      exact (ih.append_left _).trans (Put.acknowledged_append_failed answered)

/-- Every call sends part of the chunk, and sends something. -/
theorem sends (sent : ChunkPuts attempts positions puts left) (nonempty : positions ≠ []) :
    ∀ put ∈ puts, put.positions.Sublist positions ∧ put.positions ≠ [] := by
  induction sent with
  | @delivered attempts put answered clean => simpa using nonempty
  | @exhausted put answered remaining => simpa using nonempty
  | @again attempts first puts left answered remaining retried ih =>
      intro put putMem
      rcases List.mem_cons.mp putMem with rfl | putMem
      · exact ⟨.refl _, nonempty⟩
      · rcases ih remaining put putMem with ⟨sublist, sendsSome⟩
        exact ⟨sublist.trans (Put.failed_sublist answered), sendsSome⟩

/-- A position that a call delivered is not sent again. -/
theorem never_again (sent : ChunkPuts attempts positions puts left) (distinct : positions.Nodup) :
    puts.Pairwise fun earlier later =>
      ∀ position ∈ earlier.acknowledged, position ∉ later.positions := by
  induction sent with
  | delivered answered clean => simp
  | exhausted answered remaining => simp
  | @again attempts first puts left answered remaining retried ih =>
      have split := (Put.acknowledged_append_failed answered).nodup_iff.mpr distinct
      rcases List.nodup_append.mp split with ⟨_, failedDistinct, apart⟩
      apply List.pairwise_cons.mpr
      refine ⟨?_, ih failedDistinct⟩
      intro later laterMem position acknowledged sentLater
      have failed := (retried.sends remaining later laterMem).1.subset sentLater
      exact apart position acknowledged position failed rfl

/-- The first call sends the chunk, and each further one what the call before it failed. -/
theorem retries (sent : ChunkPuts attempts positions puts left) :
    puts.head?.map Put.positions = some positions ∧
      puts.IsChain fun earlier later => later.positions = earlier.failed := by
  induction sent with
  | delivered answered clean => simp
  | exhausted answered remaining => simp
  | @again attempts first puts left answered remaining retried ih =>
      rcases ih with ⟨head, chain⟩
      refine ⟨rfl, ?_⟩
      cases puts with
      | nil => simp
      | cons second puts =>
          apply List.IsChain.cons_cons
          · simpa using head
          · exact chain

end ChunkPuts

end Chunks

section Session

/-- A chunk, as positions of the list, and the calls made for it. -/
structure ChunkRun where
  positions : List Nat
  puts : List Put

/-- The chunk has a record that none of its calls delivered. -/
def ChunkRun.Undelivered (run : ChunkRun) : Prop :=
  ∃ position ∈ run.positions, ∀ put ∈ run.puts, position ∉ put.acknowledged

/--
The calls for some positions, chunk by chunk, and the positions that were not
delivered when the program stopped.
-/
inductive Session (attempts size : Nat) : List Nat → List ChunkRun → List Nat → Prop
  | done : Session attempts size [] [] []
  | stop {chunk rest left : List Nat} {puts : List Put} (nonempty : chunk ≠ [])
      (bounded : chunk.length ≤ size) (sent : ChunkPuts attempts chunk puts left)
      (remaining : left ≠ []) :
      Session attempts size (chunk ++ rest) [⟨chunk, puts⟩] (left ++ rest)
  | next {chunk rest left : List Nat} {puts : List Put} {runs : List ChunkRun}
      (nonempty : chunk ≠ []) (bounded : chunk.length ≤ size)
      (sent : ChunkPuts attempts chunk puts []) (others : Session attempts size rest runs left) :
      Session attempts size (chunk ++ rest) (⟨chunk, puts⟩ :: runs) left

namespace Session

variable {attempts size : Nat} {positions left : List Nat} {runs : List ChunkRun}

theorem exists_chunkPuts (session : Session attempts size positions runs left) :
    ∀ run ∈ runs, run.positions ≠ [] ∧ run.positions.length ≤ size ∧
      ∃ left, ChunkPuts attempts run.positions run.puts left := by
  induction session with
  | done => simp
  | stop nonempty bounded sent remaining =>
      intro run runMem
      rw [List.mem_singleton.mp runMem]
      exact ⟨nonempty, bounded, _, sent⟩
  | next nonempty bounded sent others ih =>
      intro run runMem
      rcases List.mem_cons.mp runMem with rfl | runMem
      · exact ⟨nonempty, bounded, _, sent⟩
      · exact ih run runMem

/-- The chunks are cut off the front of the positions, all of them if nothing is left. -/
theorem covers (session : Session attempts size positions runs left) :
    ∃ rest, runs.flatMap ChunkRun.positions ++ rest = positions ∧ (left = [] → rest = []) := by
  induction session with
  | done => exact ⟨[], rfl, fun _ => rfl⟩
  | @stop chunk rest left puts nonempty bounded sent remaining =>
      refine ⟨rest, by simp, ?_⟩
      intro empty
      exact absurd (List.append_eq_nil_iff.mp empty).1 remaining
  | next nonempty bounded sent others ih =>
      rcases ih with ⟨rest, rfl, complete⟩
      exact ⟨rest, by simp, complete⟩

theorem delivers (session : Session attempts size positions runs left) :
    ((runs.flatMap ChunkRun.puts).flatMap Put.acknowledged ++ left).Perm positions := by
  induction session with
  | done => exact .refl _
  | stop nonempty bounded sent remaining =>
      have chunk := sent.delivers
      simp only [List.flatMap_cons, List.flatMap_nil, List.append_nil, ← List.append_assoc]
      exact chunk.append_right _
  | next nonempty bounded sent others ih =>
      have chunk := sent.delivers
      rw [List.append_nil] at chunk
      rw [List.flatMap_cons, List.flatMap_append, List.append_assoc]
      exact chunk.append ih

theorem sends (session : Session attempts size positions runs left) :
    ∀ put ∈ runs.flatMap ChunkRun.puts, put.positions ⊆ positions ∧ 1 ≤ put.positions.length ∧
      put.positions.length ≤ size := by
  intro put putMem
  rcases List.mem_flatMap.mp putMem with ⟨run, runMem, putOfRun⟩
  rcases session.exists_chunkPuts run runMem with ⟨nonempty, bounded, _, sent⟩
  rcases session.covers with ⟨rest, covered, _⟩
  rcases sent.sends nonempty put putOfRun with ⟨sublist, sendsSome⟩
  refine ⟨?_, List.length_pos_iff.mpr sendsSome, sublist.length_le.trans bounded⟩
  intro position positionMem
  rw [← covered]
  apply List.mem_append_left
  exact List.mem_flatMap.mpr ⟨run, runMem, sublist.subset positionMem⟩

theorem never_again (session : Session attempts size positions runs left)
    (distinct : positions.Nodup) :
    (runs.flatMap ChunkRun.puts).Pairwise fun earlier later =>
      ∀ position ∈ earlier.acknowledged, position ∉ later.positions := by
  induction session with
  | done => simp
  | stop nonempty bounded sent remaining =>
      simpa using sent.never_again (List.nodup_append.mp distinct).1
  | @next chunk rest left puts runs nonempty bounded sent others ih =>
      rcases List.nodup_append.mp distinct with ⟨chunkDistinct, restDistinct, apart⟩
      rw [List.flatMap_cons]
      apply List.pairwise_append.mpr
      refine ⟨sent.never_again chunkDistinct, ih restDistinct, ?_⟩
      intro earlier earlierMem later laterMem position acknowledged sentLater
      have inChunk : position ∈ chunk := by
        have mem : position ∈ puts.flatMap Put.acknowledged ++ [] := by
          rw [List.append_nil]
          exact List.mem_flatMap.mpr ⟨earlier, earlierMem, acknowledged⟩
        exact sent.delivers.mem_iff.mp mem
      have inRest : position ∈ rest := (others.sends later laterMem).1 sentLater
      exact apart position inChunk position inRest rfl

/-- Positions are left exactly when a chunk has used up its calls with a record undelivered. -/
theorem remaining_iff (session : Session attempts size positions runs left)
    (distinct : positions.Nodup) :
    left ≠ [] ↔ ∃ run ∈ runs, run.puts.length = attempts ∧ run.Undelivered := by
  induction session with
  | done => simp
  | @stop chunk rest left puts nonempty bounded sent remaining =>
      have chunkDistinct := (List.nodup_append.mp distinct).1
      have split := sent.delivers.nodup_iff.mpr chunkDistinct
      constructor
      · intro _
        refine ⟨_, List.mem_cons_self, sent.calls.2.2 remaining, ?_⟩
        rcases List.exists_mem_of_ne_nil left remaining with ⟨position, positionMem⟩
        refine ⟨position, sent.delivers.mem_iff.mp (List.mem_append_right _ positionMem), ?_⟩
        intro put putMem acknowledged
        have delivered := List.mem_flatMap.mpr ⟨put, putMem, acknowledged⟩
        exact (List.nodup_append.mp split).2.2 position delivered position positionMem rfl
      · intro _ empty
        exact remaining (List.append_eq_nil_iff.mp empty).1
  | @next chunk rest left puts runs nonempty bounded sent others ih =>
      have delivered : ¬ChunkRun.Undelivered ⟨chunk, puts⟩ := by
        rintro ⟨position, positionMem, missed⟩
        have mem := sent.delivers.mem_iff.mpr positionMem
        rw [List.append_nil] at mem
        rcases List.mem_flatMap.mp mem with ⟨put, putMem, acknowledged⟩
        exact missed put putMem acknowledged
      rw [ih (List.nodup_append.mp distinct).2.1]
      simp [delivered]

end Session

/-- The records at the positions of a chunk are the records of the chunk. -/
theorem recordsAt_range' {start count : Nat} (within : start + count ≤ records.length) :
    Put.recordsAt records (List.range' start count) = (records.drop start).take count := by
  apply List.ext_getElem
  · simp only [Put.recordsAt, List.length_map, List.length_range', List.length_take,
      List.length_drop]
    omega
  · intro index inPositions inRecords
    simp only [Put.recordsAt, List.length_map, List.length_range'] at inPositions
    simp only [Put.recordsAt, List.getElem_map, List.getElem_range', List.getElem_take,
      List.getElem_drop, Nat.one_mul]
    have inList : start + index < records.length := by omega
    simp [inList]

/-- A run of a re-ingestion is a session over the positions of the list. -/
theorem session_of_forM {attempts size : Nat} (start : Nat) {rest : List Bytes}
    {log : List TransformEvent} {outcome : Except Exc Unit} (positive : 0 < attempts)
    (someSize : 0 < size) (tail : rest = records.drop start) (within : start ≤ records.length)
    (ran : ((chunks size rest).forM (putChunk config attempts)).Runs log outcome)
    (answered : ∀ event ∈ log, Answers event) :
    ∃ runs left, Session attempts size (List.range' start rest.length) runs left ∧
      log = (runs.flatMap ChunkRun.puts).map (Put.event config records) ∧
      (left = [] ∧ outcome = .ok () ∨ left ≠ [] ∧ ∃ error, outcome = .error error) := by
  fun_induction chunks size rest generalizing start log with
  | case1 records => omega
  | case2 size =>
      rcases ran with ⟨rfl, rfl⟩
      exact ⟨[], [], .done, rfl, Or.inl ⟨rfl, rfl⟩⟩
  | case3 size first rest ih =>
      have length_eq : rest.length + 1 = records.length - start := by
        rw [← List.length_cons, tail, List.length_drop]
      have count : (first :: rest.take size).length = min (size + 1) (rest.length + 1) := by
        simp only [List.length_cons, List.length_take]
        omega
      have chunk_eq : first :: rest.take size = Put.recordsAt records
          (List.range' start (first :: rest.take size).length) := by
        rw [recordsAt_range' (by omega), ← tail, count, ← List.length_cons, ← List.take_eq_take_min]
        rfl
      have rest_eq : rest.drop size =
          records.drop (start + (first :: rest.take size).length) := by
        rw [count, ← List.drop_drop, ← tail]
        by_cases short : size ≤ rest.length
        · rw [Nat.min_eq_left (by omega), List.drop_succ_cons]
        · rw [Nat.min_eq_right (by omega), List.drop_of_length_le (by omega),
            List.drop_of_length_le (by simp)]
      have positions_eq : List.range' start (first :: rest).length =
          List.range' start (first :: rest.take size).length ++
            List.range' (start + (first :: rest.take size).length) (rest.drop size).length := by
        rw [List.range'_append_1]
        congr 1
        simp only [List.length_cons, List.length_take, List.length_drop]
        omega
      have nonempty : List.range' start (first :: rest.take size).length ≠ [] := by simp
      have bounded :
          (List.range' start (first :: rest.take size).length).length ≤ size + 1 := by
        rw [List.length_range', count]
        omega
      rw [positions_eq]
      rcases Program.runs_bind.mp ran with
        ⟨error, rfl, stopped⟩ | ⟨_, early, late, rfl, sending, continued⟩
      · rw [chunk_eq] at stopped
        rcases chunkPuts_of_putChunk positive stopped answered with
          ⟨puts, left, sent, rfl, ⟨_, impossible⟩ | ⟨remaining, raised⟩⟩
        · cases impossible
        · refine ⟨_, _, .stop nonempty bounded sent remaining, by simp, Or.inr ⟨?_, raised⟩⟩
          simp [remaining]
      · rw [chunk_eq] at sending
        rcases chunkPuts_of_putChunk positive sending
            fun event eventMem => answered event (List.mem_append_left _ eventMem) with
          ⟨puts, left, sent, rfl, ⟨rfl, _⟩ | ⟨_, _, impossible⟩⟩
        · rcases ih _ (by omega) rest_eq (by omega) continued
              fun event eventMem => answered event (List.mem_append_right _ eventMem) with
            ⟨runs, left, others, rfl, ending⟩
          exact ⟨_, left, .next nonempty bounded sent others, by simp, ending⟩
        · cases impossible

/--
Every call sends between one and 500 records, a delivered record is not sent
again, a normal return means that every position was delivered exactly once, and
the program raises exactly when a chunk has used up its calls with a record
undelivered; no chunk takes more calls than that.
-/
theorem reingest_delivers_once {log : List TransformEvent} {outcome : Except Exc Unit}
    (attempts : 1 ≤ config.reingestMaxAttempts)
    (ran : (reingest config records).Runs log outcome)
    (answered : ∀ event ∈ log, Answers event) :
    ∃ runs : List ChunkRun,
      log = (runs.flatMap ChunkRun.puts).map (Put.event config records) ∧
      (∃ rest, runs.flatMap ChunkRun.positions ++ rest = List.range records.length ∧
        (outcome = .ok () → rest = [])) ∧
      (∀ run ∈ runs, run.puts.head?.map Put.positions = some run.positions ∧
        run.puts.IsChain fun earlier later => later.positions = earlier.failed) ∧
      (∀ put ∈ runs.flatMap ChunkRun.puts, 1 ≤ put.positions.length ∧
        put.positions.length ≤ 500) ∧
      ((runs.flatMap ChunkRun.puts).Pairwise fun earlier later =>
        ∀ position ∈ earlier.acknowledged, position ∉ later.positions) ∧
      (outcome = .ok () →
        ((runs.flatMap ChunkRun.puts).flatMap Put.acknowledged).Perm
          (List.range records.length)) ∧
      ((∃ error, outcome = .error error) ↔ ∃ run ∈ runs,
        run.puts.length = config.reingestMaxAttempts ∧ run.Undelivered) ∧
      ∀ run ∈ runs, run.puts.length ≤ config.reingestMaxAttempts := by
  rcases session_of_forM 0 attempts (by decide) rfl (Nat.zero_le _) ran answered with
    ⟨runs, left, session, log_eq, ending⟩
  rw [← List.range_eq_range'] at session
  have distinct : (List.range records.length).Nodup := List.nodup_range
  have ended : outcome = .ok () ↔ left = [] := by
    rcases ending with ⟨rfl, rfl⟩ | ⟨remaining, error, rfl⟩
    · simp
    · simp [remaining]
  have raised : (∃ error, outcome = .error error) ↔ left ≠ [] := by
    rcases ending with ⟨rfl, rfl⟩ | ⟨remaining, error, rfl⟩
    · simp
    · simp [remaining]
  refine ⟨runs, log_eq, ?_, ?_, ?_, session.never_again distinct, ?_, ?_, ?_⟩
  · rcases session.covers with ⟨rest, covered, complete⟩
    exact ⟨rest, covered, fun returned => complete (ended.mp returned)⟩
  · intro run runMem
    rcases session.exists_chunkPuts run runMem with ⟨_, _, _, sent⟩
    exact sent.retries
  · intro put putMem
    exact (session.sends put putMem).2
  · intro returned
    have delivered := session.delivers
    rwa [ended.mp returned, List.append_nil] at delivered
  · exact raised.trans (session.remaining_iff distinct)
  · intro run runMem
    rcases session.exists_chunkPuts run runMem with ⟨_, _, _, sent⟩
    exact sent.calls.2.1

end Session

namespace Sample

def pair : List Bytes := [[0x61], [0x62]]

/-- The second record of `pair` fails at first and is delivered by a second call. -/
def pairPuts : List Put := [⟨[0, 1], [⟨none⟩, ⟨some (str "503")⟩]⟩, ⟨[1], [⟨none⟩]⟩]

theorem runs_pair :
    (reingest settings pair).Runs (pairPuts.map (Put.event settings pair)) (.ok ()) := by
  have second : (⟨some (str "503")⟩ : PutResult).Failed := by decide
  have first : ¬(⟨none⟩ : PutResult).Failed := by decide
  simp [reingest, putRecordBatchMax, chunks, settings, putChunk, pair, pairPuts, Put.event,
    Put.recordsAt, Program.ofExcept, failedOf, second, first, Except.map]

theorem answers_pair : ∀ event ∈ pairPuts.map (Put.event settings pair), Answers event := by
  intro event eventMem
  rcases List.mem_map.mp eventMem with ⟨put, putMem, rfl⟩
  refine ⟨put.results, ?_, rfl⟩
  simp only [pairPuts, List.mem_cons, List.not_mem_nil, or_false] at putMem
  rcases putMem with rfl | rfl
  · rfl
  · rfl

end Sample

theorem reingest_delivers_once_pair :
    ∃ runs : List ChunkRun, Sample.pairPuts.map (Put.event Sample.settings Sample.pair) =
        (runs.flatMap ChunkRun.puts).map (Put.event Sample.settings Sample.pair) ∧
      ((runs.flatMap ChunkRun.puts).flatMap Put.acknowledged).Perm (List.range 2) := by
  rcases reingest_delivers_once (by decide) Sample.runs_pair Sample.answers_pair with
    ⟨runs, log_eq, _, _, _, _, delivered, _⟩
  exact ⟨runs, log_eq, delivered rfl⟩

end CwlSplit
