import Libjingle.Media.CryptoAgreement

/-! The ids of SCTP streams. An id is drawn until one passes a test against the streams that
are known, unless these are too many. -/

namespace Libjingle

def Fair (rng : RandomGenerator) : Prop :=
  ∀ residue < kMaxSctpSid, ∀ n, ∃ m ≥ n, rng.id m ≠ 0 ∧ rng.id m % kMaxSctpSid = residue

def IsFree (params : List StreamParams) (sid : UInt32) : Prop :=
  ∀ stream ∈ params, stream.hasSsrc sid = false

/-- `GenerateSctpSid` returns an id that is free, or nothing if none is. -/
def SidReturned (rng : RandomGenerator) (params : List StreamParams) (n : Nat) : Prop :=
  ∃ rounds sid k, generateSctpSid rng rounds params n = .ok (sid, k) ∧
    (∀ id, sid = some id → IsFree params id) ∧
      (sid = none ↔ ∀ id < kMaxSctpSid, ¬ IsFree params id)

/-- What `AddStreamParams` does for the ids of a new stream. -/
def drawStream (rng : RandomGenerator) (rounds : Nat) (params : List StreamParams)
    (isSctp includeRtxStream : Bool) (stream : StreamParams) : Draw StreamParams := do
  let ssrcs ← generateIds rng rounds params isSctp includeRtxStream
  addSsrcs stream ssrcs includeRtxStream

/-- A stream gets the id that was generated for it, or failure is reported. -/
def StreamAdded (rng : RandomGenerator) (params : List StreamParams) (includeRtxStream : Bool)
    (stream : StreamParams) (n : Nat) : Prop :=
  ∃ rounds, drawStream rng rounds params true includeRtxStream stream n = .error .null ∨
    ∃ sid k, generateSctpSid rng rounds params n = .ok (some sid, k) ∧
      drawStream rng rounds params true includeRtxStream stream n =
        .ok ({ stream with ssrcs := stream.ssrcs ++ [sid] }, k)

/-- There are not too many streams, none is to be added for retransmissions, and an id passes
the test. The test of zero looks for a stream without ids instead. -/
structure SidsLeft (params : List StreamParams) (includeRtxStream : Bool) : Prop where
  few : params.length ≤ kMaxSctpSid.toNat
  single : includeRtxStream = false
  passes : ∃ sid < kMaxSctpSid, getStreamBySsrc params sid = none
  zero : getStreamBySsrc params 0 = none → IsFree params 0

/-- Streams that are added to known ones: some that are known already, and new ones, each with a
single id that is free among those known by then. -/
inductive Adds : List StreamParams → List StreamParams → Prop
  | nil (params : List StreamParams) : Adds params []
  | known {params rest : List StreamParams} {stream : StreamParams} (h : stream ∈ params)
    (later : Adds params rest) : Adds params (stream :: rest)
  | new {params rest : List StreamParams} {stream : StreamParams} {sid : UInt32}
    (hssrcs : stream.ssrcs = [sid]) (hlt : sid < kMaxSctpSid) (hfree : IsFree params sid)
    (later : Adds (params ++ [stream]) rest) : Adds params (stream :: rest)

section Ready

variable (rng : RandomGenerator) (rounds : Nat) (all : List MediaSessionOptions.Stream) (rtx : Bool)

/-- An id is left for every stream of the loop that is not known when its turn comes. -/
def EachLeft : List MediaSessionOptions.Stream → MediaContentDescription → List StreamParams →
    Nat → Prop
  | [], _, _, _ => True
  | stream :: rest, d, current, n =>
    (getStreamByIds current "" stream.id = none → SidsLeft current rtx) ∧
      ∀ next k, addOptionStream rng rounds all rtx d current stream n = .ok (next, k) →
        EachLeft rest next.1 next.2 k

/-- An id is left for every new stream of `AddStreamParams`. -/
def AllLeft (type : MediaType) (current : List StreamParams) (legacy : Bool)
    (d : MediaContentDescription) (n : Nat) : Prop :=
  if (all.isEmpty && legacy) = true then SidsLeft current rtx
  else EachLeft rng rounds all rtx (all.filter (·.type = type)) d current n

end Ready

theorem Draw.bind_error {α β : Type} {x : Draw α} {f : α → Draw β} {n : Nat} {stop : Stop} :
    (x >>= f) n = .error stop ↔
      x n = .error stop ∨ ∃ a m, x n = .ok (a, m) ∧ f a m = .error stop := by
  show (x n >>= fun r => f r.1 r.2) = .error stop ↔ _
  cases hx : x n with
  | error e => simp [bind, Except.bind]
  | ok r =>
    simp only [bind, Except.bind, reduceCtorEq, false_or, Except.ok.injEq]
    constructor
    · exact fun h => ⟨r.1, r.2, rfl, h⟩
    · rintro ⟨a, m, rfl, h⟩
      exact h

section Sids

variable {rng : RandomGenerator} {rounds : Nat} {params : List StreamParams} {rtx : Bool}

theorem isFree_iff {sid : UInt32} (h : sid ≠ 0) :
    getStreamBySsrc params sid = none ↔ IsFree params sid := by
  rw [getStreamBySsrc, getStream, List.find?_eq_none, IsFree]
  refine forall₂_congr fun stream _ => ?_
  rw [StreamSelector.isMatch, if_neg h, Bool.not_eq_true]

theorem SidsLeft.isFree (h : SidsLeft params rtx) {sid : UInt32}
    (hpasses : getStreamBySsrc params sid = none) : IsFree params sid := by
  by_cases hzero : sid = 0
  · rw [hzero] at hpasses ⊢
    exact h.zero hpasses
  · exact (isFree_iff hzero).mp hpasses

theorem createRandomNonZeroId_ends {n m : Nat} (hm : rng.id m ≠ 0) (hn : n ≤ m)
    (hrounds : m < n + rounds) : ∃ j, n ≤ j ∧ j ≤ m ∧ rng.id j ≠ 0 ∧
      rng.createRandomNonZeroId rounds n = .ok (rng.id j, j + 1) := by
  induction rounds generalizing n with
  | zero => omega
  | succ rounds ih =>
    by_cases hid : rng.id n = 0
    · have hne : n ≠ m := by
        rintro rfl
        exact hm hid
      obtain ⟨j, hnj, hjm, hj, hdraw⟩ := ih (n := n + 1) (by omega) (by omega)
      refine ⟨j, by omega, hjm, hj, ?_⟩
      rw [RandomGenerator.createRandomNonZeroId]
      dsimp only
      rw [if_pos hid]
      exact hdraw
    · refine ⟨n, le_refl n, hn, hid, ?_⟩
      rw [RandomGenerator.createRandomNonZeroId]
      dsimp only
      rw [if_neg hid]

variable (rounds) in
theorem freshSctpSid_ends {n m : Nat} (fuel : Nat) (hm : rng.id m ≠ 0)
    (hpasses : getStreamBySsrc params (rng.id m % kMaxSctpSid) = none) (hn : n ≤ m)
    (hrounds : m < n + rounds) (hfuel : m < n + fuel) :
    ∃ sid k, freshSctpSid rng rounds params fuel n = .ok (sid, k) := by
  induction fuel generalizing n with
  | zero => omega
  | succ fuel ih =>
    obtain ⟨j, hnj, hjm, -, hdraw⟩ := createRandomNonZeroId_ends hm hn hrounds
    by_cases htest : getStreamBySsrc params (rng.id j % kMaxSctpSid) = none
    · refine ⟨rng.id j % kMaxSctpSid, j + 1, ?_⟩
      rw [freshSctpSid]
      refine Draw.bind_ok.mpr ⟨_, _, hdraw, ?_⟩
      rw [htest]
      rfl
    · have hne : j ≠ m := by
        rintro rfl
        exact htest hpasses
      obtain ⟨sid, k, hrest⟩ := ih (n := j + 1) (by omega) (by omega) (by omega)
      refine ⟨sid, k, ?_⟩
      rw [freshSctpSid]
      refine Draw.bind_ok.mpr ⟨_, _, hdraw, ?_⟩
      rw [if_neg (by simpa using htest)]
      exact hrest

theorem freshSctpSid_passes {n k fuel : Nat} {sid : UInt32}
    (h : freshSctpSid rng rounds params fuel n = .ok (sid, k)) :
    getStreamBySsrc params sid = none ∧ sid < kMaxSctpSid := by
  induction fuel generalizing n with
  | zero => exact absurd h Draw.throw_ok
  | succ fuel ih =>
    rw [freshSctpSid] at h
    obtain ⟨id, m, -, h⟩ := Draw.bind_ok.mp h
    by_cases htest : (getStreamBySsrc params (id % kMaxSctpSid)).isNone = true
    · rw [if_pos htest] at h
      obtain ⟨rfl, -⟩ := Draw.pure_ok.mp h
      exact ⟨Option.isNone_iff_eq_none.mp htest, UInt32.mod_lt _ (by decide)⟩
    · rw [if_neg htest] at h
      exact ih h

theorem generateSctpSid_ok (h : params.length ≤ kMaxSctpSid.toNat) {n k : Nat}
    {sid : Option UInt32} : generateSctpSid rng rounds params n = .ok (sid, k) ↔
      ∃ id, sid = some id ∧ freshSctpSid rng rounds params rounds n = .ok (id, k) := by
  rw [generateSctpSid, if_neg (Nat.not_lt.mpr h)]
  constructor
  · intro hsid
    obtain ⟨id, m, hfresh, hpure⟩ := Draw.bind_ok.mp hsid
    obtain ⟨rfl, rfl⟩ := Draw.pure_ok.mp hpure
    exact ⟨id, rfl, hfresh⟩
  · rintro ⟨id, rfl, hfresh⟩
    exact Draw.bind_ok.mpr ⟨id, k, hfresh, rfl⟩

theorem drawStream_ok {stream result : StreamParams} {n k : Nat} :
    drawStream rng rounds params true rtx stream n = .ok (result, k) ↔
      ∃ sid, generateSctpSid rng rounds params n = .ok (some sid, k) ∧ rtx = false ∧
        result = { stream with ssrcs := stream.ssrcs ++ [sid] } := by
  rw [drawStream]
  constructor
  · intro h
    obtain ⟨ssrcs, m, hids, h⟩ := Draw.bind_ok.mp h
    obtain ⟨sid, m', hsid, hids⟩ := Draw.bind_ok.mp hids
    obtain ⟨rfl, rfl⟩ := Draw.pure_ok.mp hids
    obtain ⟨ssrc, _, hfirst, h⟩ := Draw.bind_ok.mp h
    obtain ⟨hssrc, rfl⟩ := Draw.orElse_ok.mp hfirst
    cases sid with
    | none => cases hssrc
    | some sid =>
      obtain rfl : sid = ssrc := Option.some.inj hssrc
      cases rtx with
      | false =>
        obtain ⟨rfl, rfl⟩ := Draw.pure_ok.mp h
        exact ⟨sid, hsid, rfl, rfl⟩
      | true =>
        obtain ⟨fid, _, hfid, -⟩ := Draw.bind_ok.mp h
        simp [Draw.orElse_ok] at hfid
  · rintro ⟨sid, hsid, rfl, rfl⟩
    refine Draw.bind_ok.mpr ⟨[sid], k, Draw.bind_ok.mpr ⟨_, _, hsid, rfl⟩, rfl⟩

theorem createRandomNonZeroId_stop {n : Nat} {stop : Stop}
    (h : rng.createRandomNonZeroId rounds n = .error stop) : stop = .endless := by
  induction rounds generalizing n with
  | zero => exact (Except.error.inj h).symm
  | succ rounds ih =>
    rw [RandomGenerator.createRandomNonZeroId] at h
    dsimp only at h
    split at h
    · exact ih h
    · cases h

theorem freshSctpSid_stop {fuel n : Nat} {stop : Stop}
    (h : freshSctpSid rng rounds params fuel n = .error stop) : stop = .endless := by
  induction fuel generalizing n with
  | zero => exact (Except.error.inj h).symm
  | succ fuel ih =>
    rw [freshSctpSid] at h
    rcases Draw.bind_error.mp h with h | ⟨id, m, -, h⟩
    · exact createRandomNonZeroId_stop h
    · split at h
      · cases h
      · exact ih h

theorem generateSctpSid_stop {n : Nat} {stop : Stop}
    (h : generateSctpSid rng rounds params n = .error stop) : stop = .endless := by
  rw [generateSctpSid] at h
  split at h
  · cases h
  · rcases Draw.bind_error.mp h with h | ⟨id, m, -, h⟩
    · exact freshSctpSid_stop h
    · cases h

theorem drawStream_stop {stream : StreamParams} {n : Nat} {stop : Stop}
    (h : drawStream rng rounds params true rtx stream n = .error stop) :
    stop = .endless ∨ (stop = .missing ∧ (kMaxSctpSid.toNat < params.length ∨ rtx = true)) := by
  rw [drawStream] at h
  rcases Draw.bind_error.mp h with h | ⟨ssrcs, m, hids, h⟩
  · rcases Draw.bind_error.mp h with h | ⟨sid, m, -, h⟩
    · exact .inl (generateSctpSid_stop h)
    · cases h
  · obtain ⟨sid, m', hsid, hids⟩ := Draw.bind_ok.mp hids
    obtain ⟨rfl, rfl⟩ := Draw.pure_ok.mp hids
    refine .inr ?_
    cases sid with
    | none =>
      have hmany : kMaxSctpSid.toNat < params.length := by
        by_contra hfew
        obtain ⟨id, hid, -⟩ := (generateSctpSid_ok (Nat.not_lt.mp hfew)).mp hsid
        cases hid
      exact ⟨(Except.error.inj h).symm, .inl hmany⟩
    | some sid =>
      cases rtx with
      | false => cases h
      | true => exact ⟨(Except.error.inj h).symm, .inr rfl⟩

theorem ends_of_sidsLeft (h : SidsLeft params rtx) (hfair : Fair rng) (n : Nat) :
    ∃ rounds sid k, generateSctpSid rng rounds params n = .ok (some sid, k) := by
  obtain ⟨residue, hresidue, hpasses⟩ := h.passes
  obtain ⟨m, hn, hm, rfl⟩ := hfair residue hresidue n
  obtain ⟨sid, k, hfresh⟩ := freshSctpSid_ends (m - n + 1) (m - n + 1) hm hpasses
    hn (by omega) (by omega)
  exact ⟨m - n + 1, sid, k, (generateSctpSid_ok h.few).mpr ⟨sid, rfl, hfresh⟩⟩

theorem passes_of_generateSctpSid {n k : Nat} {sid : UInt32}
    (h : generateSctpSid rng rounds params n = .ok (some sid, k)) :
    getStreamBySsrc params sid = none ∧ sid < kMaxSctpSid := by
  by_cases hfew : params.length ≤ kMaxSctpSid.toNat
  · obtain ⟨id, hid, hfresh⟩ := (generateSctpSid_ok hfew).mp h
    cases hid
    exact freshSctpSid_passes hfresh
  · rw [generateSctpSid, if_pos (Nat.not_le.mp hfew)] at h
    cases h

/-- The residues one after the other, from zero on. -/
def cyclingGenerator : RandomGenerator where
  generate _ len := some (List.replicate len 0)
  length_generate := MediaSessionDescriptionFactory.length_zeros
  id n := UInt32.ofNat (n % 9 + 9)

theorem id_cyclingGenerator (n : Nat) : cyclingGenerator.id n ≠ 0 ∧
    (cyclingGenerator.id n % kMaxSctpSid).toNat = n % 9 := by
  have hlt : n % 9 < 9 := Nat.mod_lt _ (by decide)
  have hid : (cyclingGenerator.id n).toNat = n % 9 + 9 :=
    UInt32.toNat_ofNat_of_lt' (show n % 9 + 9 < 4294967296 by omega)
  have hmax : kMaxSctpSid.toNat = 9 := rfl
  constructor
  · intro hzero
    rw [hzero] at hid
    have hnat : (0 : UInt32).toNat = 0 := rfl
    omega
  · rw [UInt32.toNat_mod, hid, hmax]
    omega

theorem fair_cyclingGenerator : Fair cyclingGenerator := by
  intro residue hresidue n
  have hlt : residue.toNat < 9 := hresidue
  obtain ⟨hid, hmod⟩ := id_cyclingGenerator (n * 9 + residue.toNat)
  refine ⟨n * 9 + residue.toNat, by omega, hid, UInt32.toNat_inj.mp ?_⟩
  rw [hmod]
  omega

theorem zero_of_cyclingGenerator (hpasses : getStreamBySsrc params 0 = none) {k : Nat} {sid : UInt32}
    (h : generateSctpSid cyclingGenerator rounds params 0 = .ok (some sid, k)) : sid = 0 := by
  have hfew : params.length ≤ kMaxSctpSid.toNat := by
    by_contra hmany
    rw [generateSctpSid, if_pos (Nat.not_le.mp hmany)] at h
    cases h
  obtain ⟨id, hid, hfresh⟩ := (generateSctpSid_ok hfew).mp h
  cases hid
  cases rounds with
  | zero => exact absurd hfresh Draw.throw_ok
  | succ rounds =>
    rw [freshSctpSid] at hfresh
    obtain ⟨id, m, hdraw, hfresh⟩ := Draw.bind_ok.mp hfresh
    have hid : id = 9 := by
      rw [RandomGenerator.createRandomNonZeroId] at hdraw
      dsimp only at hdraw
      rw [if_neg (id_cyclingGenerator 0).1] at hdraw
      cases hdraw
      rfl
    have hzero : id % kMaxSctpSid = 0 := by
      rw [hid]
      rfl
    rw [hzero, hpasses] at hfresh
    exact (Draw.pure_ok.mp hfresh).1.symm

theorem freshCname_stop {fuel n : Nat} (h : freshCname rng params fuel n = .error .missing) :
    False := by
  induction fuel generalizing n with
  | zero => cases h
  | succ fuel ih =>
    rw [freshCname] at h
    rcases Draw.bind_error.mp h with h | ⟨cname, m, -, h⟩
    · cases h
    · cases cname with
      | none => cases h
      | some cname =>
        dsimp only at h
        split at h
        · exact ih h
        · cases h

theorem generateCname_stop {streams : List MediaSessionOptions.Stream} {label : String} {n : Nat} :
    generateCname rng rounds params streams label n ≠ .error .missing := by
  rw [generateCname]
  generalize (streams.filter (·.syncLabel = label)).findSome?
    (fun s => getStreamByIds params "" s.id) = found
  intro h
  cases found with
  | some param => cases h
  | none => exact freshCname_stop h

theorem drawStream_left (h : SidsLeft params rtx) {stream : StreamParams} {n : Nat} :
    drawStream rng rounds params true rtx stream n ≠ .error .missing ∧
      ∀ result k, drawStream rng rounds params true rtx stream n = .ok (result, k) →
        ∃ sid < kMaxSctpSid, result = { stream with ssrcs := stream.ssrcs ++ [sid] } ∧
          IsFree params sid := by
  constructor
  · intro hstop
    rcases drawStream_stop hstop with hstop | ⟨-, hmany | hrtx⟩
    · cases hstop
    · exact absurd h.few (Nat.not_le.mpr hmany)
    · rw [h.single] at hrtx
      cases hrtx
  · intro result k hok
    obtain ⟨sid, hsid, -, hresult⟩ := drawStream_ok.mp hok
    obtain ⟨hpasses, hlt⟩ := passes_of_generateSctpSid hsid
    exact ⟨sid, hlt, hresult, h.isFree hpasses⟩

theorem addOptionStream_new {all : List MediaSessionOptions.Stream} {d : MediaContentDescription}
    {current : List StreamParams} {stream : MediaSessionOptions.Stream}
    (hnew : getStreamByIds current "" stream.id = none) :
    addOptionStream rng rounds all rtx d current stream =
      generateCname rng rounds current all stream.syncLabel >>= fun cname =>
        drawStream rng rounds current d.isSctp rtx { id := stream.id } >>= fun param =>
          pure (addStream { param with cname := cname, syncLabel := stream.syncLabel } rtx d,
            current ++ [{ param with cname := cname, syncLabel := stream.syncLabel }]) := by
  rw [addOptionStream, hnew]
  simp only [drawStream, bind_assoc]

theorem addOptionStream_left {all : List MediaSessionOptions.Stream} {d : MediaContentDescription}
    (hd : d.isSctp = true) {current : List StreamParams} {stream : MediaSessionOptions.Stream}
    (h : getStreamByIds current "" stream.id = none → SidsLeft current rtx) {n : Nat} :
    addOptionStream rng rounds all rtx d current stream n ≠ .error .missing ∧
      ∀ next k, addOptionStream rng rounds all rtx d current stream n = .ok (next, k) →
        next.1.isSctp = true ∧ ∃ param, next.1.streams = d.streams ++ [param] ∧
          ((param ∈ current ∧ next.2 = current) ∨
            (next.2 = current ++ [param] ∧ ∃ sid < kMaxSctpSid, param.ssrcs = [sid] ∧
              IsFree current sid)) := by
  cases hfound : getStreamByIds current "" stream.id with
  | some param =>
    have hadd : addOptionStream rng rounds all rtx d current stream n =
        .ok (({ d with streams := d.streams ++ [param] }, current), n) := by
      rw [addOptionStream, hfound]
      rfl
    rw [hadd]
    refine ⟨by simp, ?_⟩
    rintro next k ⟨⟩
    exact ⟨hd, param, rfl, .inl ⟨List.mem_of_find?_eq_some hfound, rfl⟩⟩
  | none =>
    rw [addOptionStream_new hfound, hd]
    constructor
    · intro hmissing
      rcases Draw.bind_error.mp hmissing with hcname | ⟨cname, m, -, hmissing⟩
      · exact generateCname_stop hcname
      · rcases Draw.bind_error.mp hmissing with hdraw | ⟨param, m', -, hpure⟩
        · exact (drawStream_left (h hfound)).1 hdraw
        · cases hpure
    · intro next k hok
      obtain ⟨cname, m, -, hok⟩ := Draw.bind_ok.mp hok
      obtain ⟨param, m', hparam, hok⟩ := Draw.bind_ok.mp hok
      obtain ⟨rfl, -⟩ := Draw.pure_ok.mp hok
      obtain ⟨sid, hlt, rfl, hfree⟩ := (drawStream_left (h hfound)).2 _ _ hparam
      exact ⟨hd, _, rfl, .inr ⟨rfl, sid, hlt, rfl, hfree⟩⟩

theorem addOptionStreams_left {all streams : List MediaSessionOptions.Stream}
    {d : MediaContentDescription} (hd : d.isSctp = true) {current : List StreamParams} {n : Nat}
    (h : EachLeft rng rounds all rtx streams d current n) :
    addOptionStreams rng rounds all rtx streams d current n ≠ .error .missing ∧
      ∀ result k, addOptionStreams rng rounds all rtx streams d current n = .ok (result, k) →
        ∃ added, result.1.streams = d.streams ++ added ∧ Adds current added := by
  induction streams generalizing d current n with
  | nil =>
    refine ⟨fun hstop => (by cases hstop), fun result k hok => ?_⟩
    obtain ⟨rfl, -⟩ := Draw.pure_ok.mp hok
    exact ⟨[], (List.append_nil _).symm, .nil _⟩
  | cons stream rest ih =>
    obtain ⟨hfirst, hrest⟩ := h
    obtain ⟨hstop, hnext⟩ := addOptionStream_left (n := n) hd hfirst
    constructor
    · intro hmissing
      rcases Draw.bind_error.mp hmissing with hmissing | ⟨next, m, hok, hmissing⟩
      · exact hstop hmissing
      · exact (ih (hnext next m hok).1 (hrest next m hok)).1 hmissing
    · intro result k hok
      obtain ⟨next, m, hstep, hok⟩ := Draw.bind_ok.mp hok
      obtain ⟨hsctp, param, hstreams, hparam⟩ := hnext next m hstep
      obtain ⟨added, hadded, hadds⟩ := (ih hsctp (hrest next m hstep)).2 result k hok
      refine ⟨param :: added, ?_, ?_⟩
      · rw [hadded, hstreams, List.append_assoc, List.singleton_append]
      · rcases hparam with ⟨hmem, hsame⟩ | ⟨hsame, sid, hlt, hssrcs, hfree⟩
        · exact .known hmem (hsame ▸ hadds)
        · exact .new hssrcs hlt hfree (hsame ▸ hadds)

theorem addStreamParams_left {type : MediaType} {all : List MediaSessionOptions.Stream}
    {legacy : Bool} {d : MediaContentDescription} (hd : d.isSctp = true)
    {current : List StreamParams} {n : Nat}
    (h : AllLeft rng rounds all rtx type current legacy d n) :
    addStreamParams rng rounds type all current legacy rtx d n ≠ .error .missing ∧
      ∀ result k, addStreamParams rng rounds type all current legacy rtx d n = .ok (result, k) →
        ∃ added, result.1.streams = d.streams ++ added ∧ Adds current added := by
  rw [AllLeft] at h
  by_cases hlegacy : (all.isEmpty && legacy) = true
  · rw [if_pos hlegacy] at h
    have hadd : addStreamParams rng rounds type all current legacy rtx d =
        drawStream rng rounds current true rtx {} >>= fun param =>
          pure (addStream param rtx d, current) := by
      rw [addStreamParams, if_pos hlegacy, hd]
      simp only [drawStream, bind_assoc]
    rw [hadd]
    constructor
    · intro hmissing
      rcases Draw.bind_error.mp hmissing with hdraw | ⟨param, m, -, hpure⟩
      · exact (drawStream_left h).1 hdraw
      · cases hpure
    · intro result k hok
      obtain ⟨param, m, hparam, hok⟩ := Draw.bind_ok.mp hok
      obtain ⟨rfl, -⟩ := Draw.pure_ok.mp hok
      obtain ⟨sid, hlt, rfl, hfree⟩ := (drawStream_left h).2 _ _ hparam
      exact ⟨_, rfl, .new rfl hlt hfree (.nil _)⟩
  · rw [if_neg hlegacy] at h
    rw [addStreamParams, if_neg hlegacy]
    exact addOptionStreams_left hd h

theorem sidsLeft_iff (params : List StreamParams) (rtx : Bool) (stream : StreamParams) :
    (∀ rng, Fair rng → ∀ n, SidReturned rng params n ∧ StreamAdded rng params rtx stream n) ↔
      SidsLeft params rtx := by
  constructor
  · intro h
    obtain ⟨⟨rounds, sid, k, hsid, hfree, -⟩, rounds', hadded⟩ :=
      h cyclingGenerator fair_cyclingGenerator 0
    obtain ⟨id, m, hid, hdraw⟩ : ∃ id m, generateSctpSid cyclingGenerator rounds' params 0 =
        .ok (some id, m) ∧ rtx = false := by
      rcases hadded with hfailed | ⟨id, m, hid, hdraw⟩
      · rcases drawStream_stop hfailed with hstop | ⟨hstop, -⟩
        · cases hstop
        · cases hstop
      · obtain ⟨-, -, hsingle, -⟩ := drawStream_ok.mp hdraw
        exact ⟨id, m, hid, hsingle⟩
    have hfew : params.length ≤ kMaxSctpSid.toNat := by
      by_contra hmany
      rw [generateSctpSid, if_pos (Nat.not_le.mp hmany)] at hid
      cases hid
    obtain ⟨hpasses, hlt⟩ := passes_of_generateSctpSid hid
    refine ⟨hfew, hdraw, ⟨id, hlt, hpasses⟩, fun hzero => ?_⟩
    obtain ⟨taken, rfl, -⟩ := (generateSctpSid_ok hfew).mp hsid
    rw [← zero_of_cyclingGenerator hzero hsid]
    exact hfree taken rfl
  · intro h rng hfair n
    obtain ⟨rounds, sid, k, hsid⟩ := ends_of_sidsLeft h hfair n
    obtain ⟨hpasses, hlt⟩ := passes_of_generateSctpSid hsid
    have hfree : IsFree params sid := h.isFree hpasses
    refine ⟨⟨rounds, some sid, k, hsid, fun id hid => ?_, ?_⟩, rounds, .inr ⟨sid, k, hsid, ?_⟩⟩
    · rwa [← Option.some.inj hid]
    · exact iff_of_false (by simp) fun hnone => hnone sid hlt hfree
    · exact drawStream_ok.mpr ⟨sid, hsid, h.single, rfl⟩

/-- The ids of SCTP streams are right exactly when one is left for each new stream: for a single
one whatever is drawn, and for `AddStreamParams` along its loop. -/
theorem sctpSids (type : MediaType) (all : List MediaSessionOptions.Stream) (legacy rtx : Bool)
    (d : MediaContentDescription) :
    (∀ params stream, (∀ rng, Fair rng → ∀ n,
        SidReturned rng params n ∧ StreamAdded rng params rtx stream n) ↔ SidsLeft params rtx) ∧
      (d.isSctp = true → ∀ rng rounds current n, AllLeft rng rounds all rtx type current legacy d n →
        addStreamParams rng rounds type all current legacy rtx d n ≠ .error .missing ∧
          ∀ result k, addStreamParams rng rounds type all current legacy rtx d n = .ok (result, k) →
            ∃ added, result.1.streams = d.streams ++ added ∧ Adds current added) :=
  ⟨fun params stream => sidsLeft_iff params rtx stream, fun hd _ _ _ _ h => addStreamParams_left hd h⟩

/-- A legacy stream in an empty description. -/
theorem sctpSids_legacy : ∃ result k, addStreamParams cyclingGenerator 1 .data [] [] true false
    { protocol := kMediaProtocolSctp } 0 = .ok (result, k) ∧
      ∃ added, result.1.streams = added ∧ Adds [] added := by
  have hleft : SidsLeft [] false := ⟨by decide, rfl, ⟨0, by decide, rfl⟩, fun _ _ h => by cases h⟩
  have hsome : (addStreamParams cyclingGenerator 1 .data [] [] true false
      { protocol := kMediaProtocolSctp } 0).toOption.isSome := by decide +kernel
  cases hresult : addStreamParams cyclingGenerator 1 .data [] [] true false
      { protocol := kMediaProtocolSctp } 0 with
  | error stop =>
    rw [hresult] at hsome
    cases hsome
  | ok result =>
    exact ⟨result.1, result.2, rfl, ((sctpSids .data [] true false
      { protocol := kMediaProtocolSctp }).2 rfl cyclingGenerator 1 [] 0 hleft).2 _ _ hresult⟩

/-- Ten streams of audio, whose ids are no ids of SCTP. -/
def audioStreams : List StreamParams :=
  (List.range 10).map fun n => { id := toString n, ssrcs := [UInt32.ofNat (1000 + n)] }

/-- There is no id for another stream though all are free, and the first one is read. -/
theorem no_sid_read : IsFree audioStreams 1 ∧ ∀ rng rounds n,
    generateSctpSid rng rounds audioStreams n = .ok (none, n) ∧
      addStreamParams rng rounds .data [] audioStreams true false
        { protocol := kMediaProtocolSctp } n = .error .missing := by
  have hmany : kMaxSctpSid.toNat < audioStreams.length := by decide
  have hfree : IsFree audioStreams 1 := by
    have hall : audioStreams.all (fun stream => !stream.hasSsrc 1) = true := by decide +kernel
    intro stream hstream
    simpa using List.all_eq_true.mp hall stream hstream
  refine ⟨hfree, fun rng rounds n => ?_⟩
  have hsid : generateSctpSid rng rounds audioStreams = pure none := if_pos hmany
  have hlegacy : (([] : List MediaSessionOptions.Stream).isEmpty && true) = true := rfl
  refine ⟨by rw [hsid]; rfl, ?_⟩
  rw [addStreamParams, if_pos hlegacy]
  have hids : generateIds rng rounds audioStreams
      ({ protocol := kMediaProtocolSctp } : MediaContentDescription).isSctp false = pure [] := by
    change generateSctpSids rng rounds audioStreams = pure []
    rw [generateSctpSids, hsid]
    rfl
  rw [hids]
  rfl

end Sids

end Libjingle
