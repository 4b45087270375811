import AiSsh.FileWrite
import AiSsh.Library.Utf8
import AiSsh.Requests

/-!
Reading a remote file up to a cap. A read is known to be cut off by the size the server reports for
the open file: a size it leaves out, or fails to tell, counts as nothing, and then no read is found
to be cut off.
-/

namespace AiSsh

open Library Program

/-- The branch of `file_read` over SFTP. -/
def fileReadSftp (path : String) (maxBytes : Nat) : FileCall FileContentInfo := do
  .ask .connection .ofExcept
  .ask .sftpChannel .ofExcept
  let (data, size, truncated) ← (readCapped path (readLimit maxBytes)).mapError classifyError
  return ⟨path, size, data.length, truncated, (Utf8.decode data).isOk, none, data⟩

/-- The size that is taken from the reply of the server. -/
def reportedSize (reply : Except SftpError Metadata) : Nat :=
  (reply.map Metadata.len).toOption.getD 0

/-- A read of at most `maxBytes` bytes that is not taken for the whole file unless it is. -/
structure HonestRead (content : Bytes) (maxBytes : Nat) (data : Bytes) (size : Nat)
    (truncated : Bool) : Prop where
  whole : truncated = false → data = content ∧ size = content.length
  initial : data <+: content
  capped : data.length ≤ maxBytes

def FileContentInfo.Honest (info : FileContentInfo) (content : Bytes) (maxBytes : Nat) : Prop :=
  HonestRead content maxBytes info.data info.size info.truncated

/-- The reads of the file in a run return its bytes in order. -/
def ReadsOf {S : Type} (path : String) (content : Bytes)
    (events : List (Event HostOp HostOp.Reply S)) : Prop :=
  ∀ reads after, ⟨.openRemote path, .ok reads, after⟩ ∈ events →
    ∃ chunk, Delivers chunk reads content

theorem readToEnd_delivers {chunk limit : Nat} {reads : Reads SftpError}
    {content data : Bytes} (h : Delivers chunk reads content)
    (hread : readToEnd limit reads = .ok data) : data = content.take limit := by
  induction reads generalizing limit content data with
  | nil =>
      have hcontent : content = [] := h
      cases limit <;> cases hread <;> simp [hcontent]
  | cons read reads ih =>
      cases limit with
      | zero =>
          cases hread
          rfl
      | succ limit =>
          cases read with
          | error error => cases hread
          | ok bytes =>
              obtain ⟨-, -, rest, hcontent, hrest⟩ := h
              cases hmore : readToEnd (limit + 1 - bytes.length) reads with
              | error error =>
                  simp only [readToEnd, hmore] at hread
                  cases hread
              | ok more =>
                  simp only [readToEnd, hmore] at hread
                  cases hread
                  rw [hcontent, List.take_append, ih hrest hmore]

section Runs

variable {S : Type} {env : Env HostOp HostOp.Reply S} {s t : S} {path : String}
  {events : List (Event HostOp HostOp.Reply S)}

/-- A read that succeeds opens the file, asks for its size and reads what was opened. -/
theorem readCapped_runs {maxBytes : Nat} {value : Bytes × Nat × Bool}
    (h : Runs env s (readCapped path maxBytes) events (.ok value) t) :
    ∃ reads reply opened data,
      events = [⟨.openRemote path, .ok reads, opened⟩, ⟨.fstat path, reply, t⟩] ∧
      readToEnd maxBytes reads = .ok data ∧
      value = (data, reportedSize reply, decide (reportedSize reply > data.length)) := by
  obtain ⟨first, s', reads, rest, hopen, h, hevents⟩ := Runs.bind_ok h
  cases hopen with
  | @ask _ opened _ _ reply _ _ _ answer hopened =>
      obtain ⟨hreply, hnone, hopened⟩ := Runs.ofExcept_ok hopened
      have hreply : reply = .ok reads := by
        cases reply with
        | error error => cases hreply
        | ok other =>
            cases hreply
            rfl
      obtain ⟨second, s'', size, last, hstat, h, hrest⟩ := Runs.bind_ok h
      cases hstat with
      | @ask _ after _ _ size _ _ _ answer' hdone =>
          cases hdone
          obtain ⟨third, s''', data, none, hdata, h, hlast⟩ := Runs.bind_ok h
          obtain ⟨hdata, hthird, hstate⟩ := Runs.ofExcept_ok hdata
          cases h
          refine ⟨reads, size, opened, data, ?_, ?_, rfl⟩
          · rw [hevents, hrest, hlast, hthird, hnone, hreply, hstate]
            rfl
          · cases hread : readToEnd maxBytes reads with
            | error error =>
                rw [hread] at hdata
                cases hdata
            | ok bytes =>
                rw [hread] at hdata
                cases hdata
                rfl

theorem readCapped_value {maxBytes : Nat} {content : Bytes} {value : Bytes × Nat × Bool}
    (h : Runs env s (readCapped path maxBytes) events (.ok value) t)
    (hreads : ReadsOf path content events) {reply : Except SftpError Metadata} {after : S}
    (hreply : ⟨.fstat path, reply, after⟩ ∈ events) :
    value = (content.take maxBytes, reportedSize reply,
      decide (reportedSize reply > (content.take maxBytes).length)) := by
  obtain ⟨reads, told, opened, data, hevents, hdata, hvalue⟩ := readCapped_runs h
  obtain ⟨chunk, hdelivers⟩ := hreads reads opened (by rw [hevents]; exact List.mem_cons_self)
  rw [hevents] at hreply
  have htold : reply = told := by
    cases List.mem_cons.mp hreply with
    | inl hopen => cases hopen
    | inr hstat =>
        cases List.mem_singleton.mp hstat
        rfl
  rw [hvalue, readToEnd_delivers hdelivers hdata, htold]

theorem fileReadSftp_runs {maxBytes : Nat} {info : FileContentInfo}
    (h : Runs env s (fileReadSftp path maxBytes) events (.ok info) t) :
    ∃ connected channel s' s'' value rest,
      events = ⟨.connection, connected, s'⟩ :: ⟨.sftpChannel, channel, s''⟩ :: rest ∧
      Runs env s'' (readCapped path (readLimit maxBytes)) rest (.ok value) t ∧
      info = ⟨path, value.2.1, value.1.length, value.2.2, (Utf8.decode value.1).isOk, none,
        value.1⟩ := by
  obtain ⟨first, s₁, _, rest, hconnection, h, hevents⟩ := Runs.bind_ok h
  cases hconnection with
  | @ask _ connected _ _ reply _ _ _ answer hdone =>
      obtain ⟨-, hfirst, hstate⟩ := Runs.ofExcept_ok hdone
      obtain ⟨second, s₂, _, rest', hchannel, h, hrest⟩ := Runs.bind_ok h
      cases hchannel with
      | @ask _ opened _ _ reply' _ _ _ answer' hdone' =>
          obtain ⟨-, hsecond, hstate'⟩ := Runs.ofExcept_ok hdone'
          obtain ⟨third, s₃, value, last, hread, h, hlast⟩ := Runs.bind_ok h
          cases h
          refine ⟨reply, reply', connected, opened, value, third, ?_, ?_, rfl⟩
          · rw [hevents, hrest, hlast, hfirst, hsecond]
            simp
          · rw [← hstate']
            exact Runs.mapError_ok hread

end Runs

/-- When what is read of a file, told by the size, is what a reader takes it for. -/
theorem honestRead_take_iff (content : Bytes) (limit size : Nat) :
    HonestRead content limit (content.take limit) size
        (decide (size > (content.take limit).length)) ↔
      min content.length (limit + 1) ≤ size := by
  have hlength := List.length_take (i := limit) (l := content)
  constructor
  · intro h
    by_cases hcut : size > (content.take limit).length
    · omega
    · obtain ⟨-, hsize⟩ := h.whole (decide_eq_false hcut)
      omega
  · intro hsize
    refine ⟨?_, List.take_prefix limit content, by omega⟩
    intro hwhole
    have hcut : ¬size > (content.take limit).length := of_decide_eq_false hwhole
    have hfits : content.length ≤ limit := by omega
    exact ⟨List.take_of_length_le hfits, by omega⟩

/-- The cap of a call is raised to one byte, which a call for none then has too many. -/
theorem take_readLimit_length (content : Bytes) (maxBytes : Nat) :
    (content.take (readLimit maxBytes)).length ≤ maxBytes ↔ (maxBytes = 0 → content = []) := by
  have hlength := List.length_take (i := readLimit maxBytes) (l := content)
  have hlimit : readLimit maxBytes = max 1 (min maxBytes maxReadBytes) := rfl
  constructor
  · intro h hzero
    apply List.eq_nil_of_length_eq_zero
    omega
  · intro h
    by_cases hzero : maxBytes = 0
    · rw [h hzero]
      simp
    · omega

/-- A read is honest when the size reported covers the file, or goes beyond the cap where the file
does. -/
theorem capped_read_honest_iff {S : Type} {env : Env HostOp HostOp.Reply S} {path : String}
    {content : Bytes} :
    (∀ maxBytes s events value t,
      Runs env s (readCapped path maxBytes) events (.ok value) t → ReadsOf path content events →
        ∀ reply after, ⟨.fstat path, reply, after⟩ ∈ events →
          (HonestRead content maxBytes value.1 value.2.1 value.2.2 ↔
            min content.length (maxBytes + 1) ≤ reportedSize reply)) ∧
    ∀ maxBytes s events info t,
      Runs env s (fileReadSftp path maxBytes) events (.ok info) t → ReadsOf path content events →
        ∀ reply after, ⟨.fstat path, reply, after⟩ ∈ events →
          (info.Honest content maxBytes ↔
            min content.length (readLimit maxBytes + 1) ≤ reportedSize reply ∧
              (maxBytes = 0 → content = [])) := by
  constructor
  · intro maxBytes s events value t hrun hreads reply after hreply
    rw [readCapped_value hrun hreads hreply]
    exact honestRead_take_iff content maxBytes (reportedSize reply)
  · intro maxBytes s events info t hrun hreads reply after hreply
    obtain ⟨connected, channel, s', s'', value, rest, hevents, hread, hinfo⟩ :=
      fileReadSftp_runs hrun
    have hmore (event : Event HostOp HostOp.Reply S) (hmem : event ∈ rest) : event ∈ events := by
      rw [hevents]
      exact List.mem_cons_of_mem _ (List.mem_cons_of_mem _ hmem)
    have hstat : ⟨.fstat path, reply, after⟩ ∈ rest := by
      rw [hevents] at hreply
      cases List.mem_cons.mp hreply with
      | inl hfirst => cases hfirst
      | inr hreply =>
          cases List.mem_cons.mp hreply with
          | inl hsecond => cases hsecond
          | inr hrest => exact hrest
    have hvalue := readCapped_value hread (fun reads opened hmem =>
      hreads reads opened (hmore _ hmem)) hstat
    rw [hinfo, FileContentInfo.Honest, hvalue, ← honestRead_take_iff, ← take_readLimit_length]
    constructor
    · intro h
      exact ⟨⟨h.whole, h.initial, (List.length_take_le _ _)⟩, h.capped⟩
    · intro h
      exact ⟨h.1.whole, h.1.initial, h.2⟩

/-- A server that answers the size query on an open file as told. -/
def sizingServer (fstat : Bytes → Except SftpError Metadata) : Server where
  hexDigest _ := ""
  escapes _ := false
  cut := .bytewise
  fails _ := false
  fstat := fstat

def threeBytes : Hosts := ⟨fun _ => some (.file [1, 2, 3] none), fun _ => none⟩

/-- The history of a capped read of two of the three bytes. -/
def twoOfThree (fstat : Bytes → Except SftpError Metadata) :
    List (Event HostOp HostOp.Reply Hosts) :=
  [⟨.openRemote "f", .ok (Cut.bytewise.reads SftpError [1, 2, 3]), threeBytes⟩,
    ⟨.fstat "f", fstat [1, 2, 3], threeBytes⟩]

/-- The same within `file_read`. -/
def twoOfThreeSftp (fstat : Bytes → Except SftpError Metadata) :
    List (Event HostOp HostOp.Reply Hosts) :=
  ⟨.connection, .ok (), threeBytes⟩ :: ⟨.sftpChannel, .ok (), threeBytes⟩ :: twoOfThree fstat

section TwoOfThree

variable (fstat : Bytes → Except SftpError Metadata)

theorem twoOfThree_runs :
    Runs hosts threeBytes (readCapped "f" 2) (twoOfThree fstat) (.ok ([1, 2],
      reportedSize (fstat [1, 2, 3]), decide (reportedSize (fstat [1, 2, 3]) > 2))) threeBytes :=
  runs_of_handler (sizingServer fstat).answer_hosts (readCapped "f" 2) threeBytes

theorem twoOfThreeSftp_runs :
    Runs hosts threeBytes (fileReadSftp "f" 2) (twoOfThreeSftp fstat) (.ok
      ⟨"f", reportedSize (fstat [1, 2, 3]), 2, decide (reportedSize (fstat [1, 2, 3]) > 2), true,
        none, [1, 2]⟩) threeBytes :=
  runs_of_handler (sizingServer fstat).answer_hosts (fileReadSftp "f" 2) threeBytes

theorem twoOfThreeSftp_reads : ReadsOf "f" [1, 2, 3] (twoOfThreeSftp fstat) := by
  intro reads after hmem
  have hopen : reads = Cut.bytewise.reads SftpError [1, 2, 3] ∧ after = threeBytes := by
    simpa [twoOfThreeSftp, twoOfThree] using hmem
  rw [hopen.1]
  exact ⟨transferChunkBytes, Cut.bytewise.delivers SftpError [1, 2, 3]⟩

theorem twoOfThree_reads : ReadsOf "f" [1, 2, 3] (twoOfThree fstat) := by
  intro reads after hmem
  exact twoOfThreeSftp_reads fstat reads after
    (List.mem_cons_of_mem _ (List.mem_cons_of_mem _ hmem))

theorem twoOfThree_stat :
    ⟨.fstat "f", fstat [1, 2, 3], threeBytes⟩ ∈ twoOfThree fstat :=
  List.mem_cons_of_mem _ List.mem_cons_self

end TwoOfThree

theorem capped_read_honest_iff_exactSize :
    HonestRead [1, 2, 3] 2 [1, 2] 3 true ∧
      FileContentInfo.Honest ⟨"f", 3, 2, true, true, none, [1, 2]⟩ [1, 2, 3] 2 := by
  let sizes : Bytes → Except SftpError Metadata := fun content => .ok ⟨some content.length⟩
  constructor
  · have hiff := capped_read_honest_iff.1 2 threeBytes (twoOfThree sizes) ([1, 2], 3, true)
      threeBytes (twoOfThree_runs sizes) (twoOfThree_reads sizes) (.ok ⟨some 3⟩) threeBytes
      (twoOfThree_stat sizes)
    exact hiff.mpr (by decide)
  · have hiff := capped_read_honest_iff.2 2 threeBytes (twoOfThreeSftp sizes)
      ⟨"f", 3, 2, true, true, none, [1, 2]⟩ threeBytes (twoOfThreeSftp_runs sizes)
      (twoOfThreeSftp_reads sizes) (.ok ⟨some 3⟩) threeBytes
      (List.mem_cons_of_mem _ (List.mem_cons_of_mem _ (twoOfThree_stat sizes)))
    exact hiff.mpr ⟨by decide, by decide⟩

/-- A server leaves the size out, and two bytes of three pass for the file. -/
theorem cut_read_passes_for_whole :
    ∃ info t, Runs hosts threeBytes (fileReadSftp "f" 2) (twoOfThreeSftp fun _ => .ok ⟨none⟩)
        (.ok info) t ∧
      ReadsOf "f" [1, 2, 3] (twoOfThreeSftp fun _ => .ok ⟨none⟩) ∧
      info.truncated = false ∧ ¬info.Honest [1, 2, 3] 2 := by
  refine ⟨_, threeBytes, twoOfThreeSftp_runs _, twoOfThreeSftp_reads _, rfl, ?_⟩
  intro h
  exact absurd (h.whole rfl).1 (by decide)

end AiSsh
