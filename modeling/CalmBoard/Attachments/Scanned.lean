import CalmBoard.Attachments.Orphans
import CalmBoard.Attachments.Reads

/-!
# CalmBoard.Attachments.Scanned — which files are shown

* `Sound`, `Knows`: a clean row has a file that was accepted, and so have the copies that are shown.
* `Settled`: a file is not replaced once a completion has begun to read it, and the completions of an
  attachment do not overlap.
* `scanned_only`: as long as that is so, what is shown has been accepted, and a verdict is final.
* `replaced_after_scan`: a file that is replaced behind the scanner's back.
-/

namespace CalmBoard.Attachments

open Sessions

variable {accepts : Bytes → Bool} {s s' : Store} {l l' m : Local} {now : ℤ} {op : Op}
  {row row' : Attachment}

/-! ### Invariants -/

/-- A copy of a row, which may have been removed since. -/
structure Copy (s : Store) (row : Attachment) : Prop where
  id : row.id ∈ s.issued
  uuid : row.url.uuid ∈ s.issued
  file : row.url.preview = false
  same : ∀ r ∈ s.attachments.rows, r.id = row.id → r.url = row.url ∧ r.mimeType = row.mimeType

/-- The file has passed the scanner and the check of its first bytes. -/
def Accepted (accepts : Bytes → Bool) (s : Store) (row : Attachment) : Prop :=
  Scanned accepts s row ∧ Recognised s row

/-- What the store keeps: a clean row has a file that was accepted, or none. -/
structure Sound (accepts : Bytes → Bool) (s : Store) : Prop where
  registered : Registered s
  clean : ∀ row ∈ s.attachments.rows, row.scanStatus = .clean → Accepted accepts s row

/-- What a session knows. -/
structure Knows (accepts : Bytes → Bool) (s : Store) (l : Local) : Prop where
  copies : ∀ row ∈ l.copies, Copy s row
  pending : ∀ id, l.scanning? = some id → ∀ r ∈ s.attachments.rows, r.id = id →
    r.scanStatus = .pending
  recognised : ∀ context row, l = .recognised context row → Recognised s row
  judged : ∀ context row result, l = .judged context row result → result.status = .clean →
    Accepted accepts s row
  shown : ∀ row ∈ l.shown, row.scanStatus = .clean → Accepted accepts s row ∧
    (l.scanning? = some row.id ∨
      ∀ r ∈ s.attachments.rows, r.url = row.url → r.scanStatus = .clean)
  tx : ∀ tx, l.tx? = some tx → tx.patch.scan.any (fun result => result.status = .clean) = true →
    ∃ row ∈ l.shown, row.id = tx.id ∧ row.scanStatus = .clean

/-- No two completions of one attachment. -/
def Single (l m : Local) : Prop := ∀ id, l.scanning? = some id → m.scanning? ≠ some id

/-- The file of a key may be replaced: its attachment is there and is not clean. -/
def Replaceable (s : Store) (key : ObjectKey) : Prop :=
  (∃ row ∈ s.attachments.rows, row.url = key) ∧
    ∀ row ∈ s.attachments.rows, row.url = key → row.scanStatus ≠ .clean

/-- A file is put only while its attachment is there and not clean, and no completion of it has begun to
read the file; and a completion begins only while no other one of its attachment is judging it. -/
def Settled (w : World Store Local) : Event Call Action → Prop
  | .act i ⟨_, .put⟩ =>
    match w.sessions[i]? with
    | some (.called (.put key _)) =>
      Replaceable w.store key ∧ ∀ m ∈ w.sessions, m.reads key = false
    | _ => True
  | .act i ⟨_, .read⟩ =>
    match w.sessions[i]? with
    | some (.called (.completeUpload _ id)) => ∀ m ∈ w.sessions, m.scanning? ≠ some id
    | _ => True
  | _ => True

instance (s : Store) (key : ObjectKey) : Decidable (Replaceable s key) :=
  inferInstanceAs (Decidable ((∃ row ∈ s.attachments.rows, _) ∧ ∀ row ∈ s.attachments.rows, _ → _))

instance (w : World Store Local) (e : Event Call Action) : Decidable (Settled w e) := by
  obtain _ | ⟨i, now, op⟩ := e
  · exact .isTrue trivial
  · cases op <;> dsimp only [Settled] <;> try exact .isTrue trivial
    all_goals
      generalize w.sessions[i]? = m
      obtain _ | m := m
      · exact .isTrue trivial
      cases m with
      | called call => cases call <;> first | exact .isTrue trivial | (dsimp only; infer_instance)
      | _ => exact .isTrue trivial

/-! ### Files -/

variable {id : Uuid}

theorem Copy.step (h : Copy s row) (hmoved : Moved op s l s') : Copy s' row := by
  obtain ⟨new, hfresh, hrows⟩ := hmoved.rows
  refine ⟨hmoved.issued h.id, hmoved.issued h.uuid, h.file, fun r' hr' hid' => ?_⟩
  rcases hrows r' hr' with ⟨r, hr, hid, hfate⟩ | hnew
  · obtain ⟨hurl, hmime, -⟩ := hfate.same
    rw [hurl, hmime]
    exact h.same r hr (hid.trans hid')
  · exact absurd (hid' ▸ h.id) (hfresh r' hnew).id

theorem copy_of_mem (hs : Registered s) (hrow : row ∈ s.attachments.rows) : Copy s row := by
  refine ⟨hs.id row hrow, hs.uuid row hrow, hs.file row hrow, fun r hr hid => ?_⟩
  rw [Table.eq_of_mem hr hrow hid]
  exact ⟨rfl, rfl⟩

theorem Copy.congr (h : Copy s row) (hid : row'.id = row.id) (hurl : row'.url = row.url)
    (hmime : row'.mimeType = row.mimeType) : Copy s row' := by
  refine ⟨hid ▸ h.id, hurl ▸ h.uuid, hurl ▸ h.file, fun r hr hrid => ?_⟩
  rw [hurl, hmime]
  exact h.same r hr (hrid.trans hid)

theorem Stores.kept {objects : ObjectKey → Option StoredObject} {key : ObjectKey}
    {object : StoredObject} (h : Stores op s l objects) (hfile : key.preview = false)
    (hput : ∀ object, op = .put → l ≠ .called (.put key object)) (hobject : objects key = some object) :
    s.objects key = some object := by
  cases h with
  | same => exact hobject
  | put key' object' hop hl =>
    by_cases hkey : key = key'
    · subst hkey
      exact absurd hl (hput object' hop)
    · rwa [Function.update_of_ne hkey] at hobject
  | preview key' object' hpreview =>
    rw [Function.update_of_ne] at hobject
    · exact hobject
    · rintro rfl
      rw [hfile] at hpreview
      cases hpreview
  | erased key' =>
    by_cases hkey : key = key'
    · subst hkey
      rw [Function.update_self] at hobject
      cases hobject
    · rwa [Function.update_of_ne hkey] at hobject

theorem FileIs.step {p : StoredObject → Prop} (h : FileIs s row p) (hmoved : Moved op s l s')
    (hfile : row.url.preview = false)
    (hput : ∀ object, op = .put → l ≠ .called (.put row.url object)) : FileIs s' row p :=
  fun object hobject => h object (hmoved.objects.kept hfile hput hobject)

theorem Accepted.step (h : Accepted accepts s row) (hmoved : Moved op s l s')
    (hfile : row.url.preview = false)
    (hput : ∀ object, op = .put → l ≠ .called (.put row.url object)) : Accepted accepts s' row :=
  ⟨FileIs.step h.1 hmoved hfile hput, FileIs.step h.2 hmoved hfile hput⟩

theorem Accepted.congr (h : Accepted accepts s row) (hurl : row'.url = row.url)
    (hmime : row'.mimeType = row.mimeType) : Accepted accepts s row' := by
  unfold Accepted Scanned Recognised FileIs Attachment.type at h ⊢
  rw [hurl, hmime]
  exact h

theorem Fate.status (h : Fate op l row row') : row'.scanStatus = row.scanStatus ∨
    ∃ rows tx, op = .commit ∧ l = .presenting rows (some tx) ∧ row.id = tx.id ∧
      tx.scans = true := by
  cases h with
  | stays | claimed | released => exact Or.inl rfl
  | patched rows tx hop hl hid =>
    rw [apply_scanStatus]
    unfold Tx.scans
    cases htx : tx.patch.scan with
    | none => exact Or.inl rfl
    | some result => exact Or.inr ⟨rows, tx, hop, hl, hid, by rw [htx]; rfl⟩

theorem Sound.step (hs : Sound accepts s) (hl : Knows accepts s l) (hmoved : Moved op s l s')
    (hput : ∀ key object, op = .put → l = .called (.put key object) → Replaceable s key) :
    Sound accepts s' := by
  refine ⟨hs.registered.step hmoved, fun row' hrow' hclean => ?_⟩
  obtain ⟨new, hfresh, hrows⟩ := hmoved.rows
  rcases hrows row' hrow' with ⟨row, hrow, hid, hfate⟩ | hnew
  · have hbefore : row.scanStatus = .clean → Accepted accepts s' row' := by
      intro hold
      refine ((hs.clean row hrow hold).step hmoved (hs.registered.file row hrow) ?_).congr
        hfate.same.1 hfate.same.2.1
      intro object hop hcalled
      exact (hput row.url object hop hcalled).2 row hrow rfl hold
    cases hfate with
    | stays | claimed | released => exact hbefore hclean
    | patched rows tx hop hl' hid' =>
      rw [apply_scanStatus] at hclean
      cases hscan : tx.patch.scan with
      | none =>
        rw [hscan] at hclean
        exact hbefore hclean
      | some result =>
        rw [hscan] at hclean
        subst hl'
        obtain ⟨shown, hshown, hshownid, hshownclean⟩ := hl.tx tx rfl (by
          rw [hscan]
          exact decide_eq_true hclean)
        have hcopy := hl.copies shown hshown
        obtain ⟨hurl, hmime⟩ := hcopy.same row hrow (hid'.trans hshownid.symm)
        refine ((hl.shown shown hshown hshownclean).1.step hmoved hcopy.file ?_).congr
          ((apply_same tx.patch row).1.trans hurl) ((apply_same tx.patch row).2.1.trans hmime)
        intro object hop'
        rw [hop] at hop'
        cases hop'
  · rw [(hfresh row' hnew).status] at hclean
    cases hclean

theorem reads_of_shown (hrow : row ∈ m.shown) (hm : m.scanning? = some id) :
    m.reads row.url = true := by
  have htx : ∀ tx : Option Tx, (tx.filter Tx.scans).map Tx.id = some id → ∃ x, tx = some x := by
    intro tx h
    cases tx with
    | none => cases h
    | some x => exact ⟨x, rfl⟩
  cases m with
  | condemned r tx =>
    rw [List.mem_singleton.mp hrow]
    exact decide_eq_true rfl
  | previewing context r tx =>
    obtain ⟨x, rfl⟩ := htx tx hm
    rw [List.mem_singleton.mp hrow]
    exact decide_eq_true rfl
  | previewed context r tx result =>
    obtain ⟨x, rfl⟩ := htx tx hm
    rw [List.mem_singleton.mp hrow]
    exact decide_eq_true rfl
  | presenting rows tx =>
    obtain ⟨x, rfl⟩ := htx tx hm
    exact List.any_eq_true.mpr ⟨row, hrow, decide_eq_true rfl⟩
  | _ => cases hrow

theorem mem_copies_of_shown (h : row ∈ m.shown) : row ∈ m.copies := by
  cases m with
  | condemned | previewing | previewed | presenting => exact h
  | _ => cases h

theorem Knows.step (hm : Knows accepts s m) (hmoved : Moved op s l s')
    (hcommit : ∀ rows tx, op = .commit → l = .presenting rows (some tx) → tx.scans = true →
      m.scanning? ≠ some tx.id ∧
        ∀ r ∈ s.attachments.rows, r.id = tx.id → r.scanStatus = .pending)
    (hput : ∀ key object, op = .put → l = .called (.put key object) →
      Replaceable s key ∧ m.reads key = false) : Knows accepts s' m := by
  obtain ⟨new, hfresh, hrows⟩ := hmoved.rows
  refine ⟨fun row hrow => (hm.copies row hrow).step hmoved, ?_, ?_, ?_, ?_, hm.tx⟩
  · intro id hid r' hr' hr'id
    rcases hrows r' hr' with ⟨r, hr, hrid, hfate⟩ | hnew
    · rcases hfate.status with hsame | ⟨rows, tx, hop, hl, htx, hscans⟩
      · rw [hsame]
        exact hm.pending id hid r hr (hrid.trans hr'id)
      · refine absurd hid ?_
        rw [← hr'id, ← hrid, htx]
        exact (hcommit rows tx hop hl hscans).1
    · exact (hfresh r' hnew).status
  · rintro context row rfl
    refine FileIs.step (hm.recognised context row rfl) hmoved (hm.copies row List.mem_cons_self).file ?_
    intro object hop hl
    have hreads := (hput row.url object hop hl).2
    exact absurd (decide_eq_true rfl) (Bool.eq_false_iff.mp hreads)
  · rintro context row result rfl hclean
    refine (hm.judged context row result rfl hclean).step hmoved
      (hm.copies row List.mem_cons_self).file ?_
    intro object hop hl
    have hreads := (hput row.url object hop hl).2
    exact absurd (decide_eq_true rfl) (Bool.eq_false_iff.mp hreads)
  · intro row hrow hclean
    obtain ⟨haccepted, hwhy⟩ := hm.shown row hrow hclean
    have hcopy := hm.copies row (mem_copies_of_shown hrow)
    refine ⟨haccepted.step hmoved hcopy.file ?_, hwhy.imp_right fun hall r' hr' hurl' => ?_⟩
    · intro object hop hl
      obtain ⟨⟨⟨r, hr, hurl⟩, hdirty⟩, hreads⟩ := hput row.url object hop hl
      rcases hwhy with hscanning | hall
      · rw [reads_of_shown hrow hscanning] at hreads
        cases hreads
      · exact hdirty r hr hurl (hall r hr hurl)
    · rcases hrows r' hr' with ⟨r, hr, hrid, hfate⟩ | hnew
      · have hold : r.scanStatus = .clean := hall r hr (hfate.same.1.symm.trans hurl')
        rcases hfate.status with hsame | ⟨rows, tx, hop, hl, htx, hscans⟩
        · rw [hsame, hold]
        · rw [(hcommit rows tx hop hl hscans).2 r hr htx] at hold
          cases hold
      · exact absurd (hurl' ▸ hcopy.uuid) (hfresh r' hnew).uuid

theorem knows_idle (h : l.Idle) : Knows accepts s l := by
  refine ⟨fun row hrow => ?_, fun id hid => ?_, ?_, ?_, fun row hrow => ?_, fun tx htx hclean => ?_⟩
  · rw [h.copies] at hrow
    cases hrow
  · rw [h.scanning] at hid
    cases hid
  · rintro context row rfl
    cases h.copies
  · rintro context row result rfl
    cases h.copies
  · rw [h.shown] at hrow
    cases hrow
  · have hscans := h.tx tx htx
    unfold Tx.scans at hscans
    rw [Option.isSome_eq_false_iff, Option.isNone_iff_eq_none] at hscans
    rw [hscans] at hclean
    cases hclean

theorem shown_of_mem (hs : Sound accepts s) (hrow : row ∈ s.attachments.rows)
    (hclean : row.scanStatus = .clean) : Accepted accepts s row ∧
      ∀ r ∈ s.attachments.rows, r.url = row.url → r.scanStatus = .clean := by
  refine ⟨hs.clean row hrow hclean, fun r hr hurl => ?_⟩
  rw [Table.eq_of_mem hr hrow (hs.registered.unique r hr row hrow hurl)]
  exact hclean

theorem knows_shows {rows : List Attachment} (hs : Sound accepts s)
    (h : ∀ row ∈ rows, row ∈ s.attachments.rows) : Knows accepts s (.presenting rows none) where
  copies row hrow := copy_of_mem hs.registered (h row hrow)
  pending id hid := by cases hid
  recognised _ _ heq := by cases heq
  judged _ _ _ heq := by cases heq
  shown row hrow hclean := (shown_of_mem hs (h row hrow) hclean).imp_right Or.inr
  tx _ htx := by cases htx

theorem knows_judging (hcopies : l.copies = [row]) (hshown : l.shown = []) (htx : l.tx? = none)
    (hscanning : l.scanning? = some row.id) (hcopy : Copy s row)
    (hpending : ∀ r ∈ s.attachments.rows, r.id = row.id → r.scanStatus = .pending)
    (hrecognised : ∀ context row, l = .recognised context row → Recognised s row)
    (hjudged : ∀ context row result, l = .judged context row result → result.status = .clean →
      Accepted accepts s row) : Knows accepts s l := by
  refine ⟨fun r hr => ?_, fun id hid => ?_, hrecognised, hjudged, fun r hr => ?_, fun tx h => ?_⟩
  · rw [hcopies, List.mem_singleton] at hr
    exact hr ▸ hcopy
  · rw [hscanning] at hid
    cases hid
    exact hpending
  · rw [hshown] at hr
    cases hr
  · rw [htx] at h
    cases h

theorem Knows.judging (h : Knows accepts s l) (hcopies : l.copies = [row])
    (hscanning : l.scanning? = some row.id) :
    Copy s row ∧ ∀ r ∈ s.attachments.rows, r.id = row.id → r.scanStatus = .pending :=
  ⟨h.copies row (hcopies ▸ List.mem_cons_self), h.pending row.id hscanning⟩

theorem knows_showing (hcopies : l.copies = [row]) (hshown : l.shown = [row])
    (hno : ∀ context row, l ≠ .recognised context row)
    (hno' : ∀ context row result, l ≠ .judged context row result) (hcopy : Copy s row)
    (hpending : ∀ id, l.scanning? = some id → ∀ r ∈ s.attachments.rows, r.id = id →
      r.scanStatus = .pending)
    (hclean : row.scanStatus = .clean → Accepted accepts s row ∧
      (l.scanning? = some row.id ∨ ∀ r ∈ s.attachments.rows, r.url = row.url → r.scanStatus = .clean))
    (htx : ∀ tx, l.tx? = some tx → tx.patch.scan.any (fun result => result.status = .clean) = true →
      row.id = tx.id ∧ row.scanStatus = .clean) : Knows accepts s l := by
  refine ⟨fun r hr => ?_, hpending, fun _ _ heq => absurd heq (hno _ _),
    fun _ _ _ heq => absurd heq (hno' _ _ _), fun r hr => ?_, fun tx h h' => ?_⟩
  · rw [hcopies, List.mem_singleton] at hr
    exact hr ▸ hcopy
  · rw [hshown, List.mem_singleton] at hr
    exact hr ▸ hclean
  · rw [hshown]
    exact ⟨row, List.mem_cons_self, htx tx h h'⟩

theorem knows_written {context : Context} {current : Attachment} {result : AttachmentScanResult}
    {tx : Tx} (hs : Registered s) (hl : Knows accepts s (.judged context row result))
    (hcurrent : current ∈ s.attachments.rows) (hid : current.id = row.id) (htx : tx.id = row.id)
    (hscan : tx.patch.scan = some result)
    (hstatus : (tx.patch.apply current).scanStatus = result.status)
    (hcopies : l.copies = [tx.patch.apply current]) (hshown : l.shown = [tx.patch.apply current])
    (hno : ∀ context row, l ≠ .recognised context row)
    (hno' : ∀ context row result, l ≠ .judged context row result) (htx' : l.tx? = some tx)
    (hscanning : l.scanning? = ((some tx).filter Tx.scans).map Tx.id) : Knows accepts s l := by
  obtain ⟨hcopy, hpending⟩ := hl.judging rfl rfl
  obtain ⟨hurl, hmime, -⟩ := apply_same tx.patch current
  have happlied : (tx.patch.apply current).id = row.id := (Patch.apply_id _ _).trans hid
  have hscans : l.scanning? = some row.id := by
    have htrue : tx.scans = true := by
      unfold Tx.scans
      rw [hscan, Option.isSome_some]
    rw [hscanning, Option.filter_some, if_pos htrue, Option.map_some, htx]
  refine knows_showing hcopies hshown hno hno'
    ((copy_of_mem hs hcurrent).congr (Patch.apply_id _ _) hurl hmime) ?_ ?_ ?_
  · intro id hid'
    rw [hscans] at hid'
    cases hid'
    exact hpending
  · intro hclean
    obtain ⟨hsame, hsame'⟩ := hcopy.same current hcurrent hid
    refine ⟨(hl.judged context row result rfl (hstatus ▸ hclean)).congr (hurl.trans hsame)
      (hmime.trans hsame'), Or.inl ?_⟩
    rw [hscans, happlied]
  · intro x hx hclean
    rw [htx'] at hx
    cases hx
    rw [hscan, Option.any_some, decide_eq_true_iff] at hclean
    exact ⟨happlied.trans htx.symm, hstatus.trans hclean⟩

/-- **Sessions** know what they need, as long as the store and they themselves have known it before. -/
theorem knows_goes (hs : Sound accepts s)
    (hl : (∀ rows tx, l ≠ .presenting rows tx) → Knows accepts s l) (h : Goes accepts op s l l') :
    Knows accepts s l' := by
  cases h with
  | idles hidle => exact knows_idle hidle
  | shows hrows => exact knows_shows hs hrows
  | @starts context id row hrow hid hpending hop =>
    refine knows_judging rfl rfl rfl rfl (copy_of_mem hs.registered hrow) (fun r hr hrid => ?_)
      (fun _ _ heq => (by cases heq)) fun _ _ _ heq => (by cases heq)
    rw [Table.eq_of_mem hr hrow hrid]
    exact hpending
  | @previews _ context row hrow =>
    refine ⟨fun r hr => ?_, fun id hid => (by cases hid), fun _ _ heq => (by cases heq),
      fun _ _ _ heq => (by cases heq), fun r hr hclean => ?_, fun _ htx => (by cases htx)⟩
    · rw [List.mem_singleton.mp hr]
      exact copy_of_mem hs.registered hrow
    · rw [List.mem_singleton.mp hr] at hclean ⊢
      exact (shown_of_mem hs hrow hclean).imp_right Or.inr
  | @inspects context row =>
    have hl := hl fun _ _ heq => (by cases heq)
    exact knows_judging rfl rfl rfl rfl (hl.copies row List.mem_cons_self) (hl.pending row.id rfl)
      (fun _ _ heq => (by cases heq)) fun _ _ _ heq => (by cases heq)
  | @rejects _ context row engine hfrom =>
    have hboth : Copy s row ∧ ∀ r ∈ s.attachments.rows, r.id = row.id → r.scanStatus = .pending := by
      rcases hfrom with rfl | rfl
      · exact (hl fun _ _ heq => (by cases heq)).judging rfl rfl
      · exact (hl fun _ _ heq => (by cases heq)).judging rfl rfl
    exact knows_judging rfl rfl rfl rfl hboth.1 hboth.2 (fun _ _ heq => (by cases heq))
      fun _ _ _ heq => (by cases heq)
  | @fails _ context row engine hfrom =>
    have hboth : Copy s row ∧ ∀ r ∈ s.attachments.rows, r.id = row.id → r.scanStatus = .pending := by
      rcases hfrom with rfl | rfl | rfl
      · exact (hl fun _ _ heq => (by cases heq)).judging rfl rfl
      · exact (hl fun _ _ heq => (by cases heq)).judging rfl rfl
      · exact (hl fun _ _ heq => (by cases heq)).judging rfl rfl
    refine knows_judging rfl rfl rfl rfl hboth.1 hboth.2 (fun _ _ heq => (by cases heq)) ?_
    intro context' row' result' heq hclean
    cases heq
    cases hclean
  | @recognises context row hrecognised =>
    have hl := hl fun _ _ heq => (by cases heq)
    refine knows_judging rfl rfl rfl rfl (hl.copies row List.mem_cons_self) (hl.pending row.id rfl) ?_
      fun _ _ _ heq => (by cases heq)
    intro context' row' heq
    cases heq
    exact hrecognised
  | @judges context row result hscanned =>
    have hl := hl fun _ _ heq => (by cases heq)
    refine knows_judging rfl rfl rfl rfl (hl.copies row List.mem_cons_self) (hl.pending row.id rfl)
      (fun _ _ heq => (by cases heq)) ?_
    intro context' row' result' heq hclean
    cases heq
    exact ⟨hscanned hclean, hl.recognised context row rfl⟩
  | @writes _ context row current result tx hcurrent hid htx hscan hstatus hl' =>
    have hl := hl fun _ _ heq => (by cases heq)
    rcases hl' with rfl | rfl | rfl
    · exact knows_written hs.registered hl hcurrent hid htx hscan hstatus rfl rfl
        (fun _ _ heq => (by cases heq)) (fun _ _ _ heq => (by cases heq)) rfl rfl
    · exact knows_written hs.registered hl hcurrent hid htx hscan hstatus rfl rfl
        (fun _ _ heq => (by cases heq)) (fun _ _ _ heq => (by cases heq)) rfl rfl
    · exact knows_written hs.registered hl hcurrent hid htx hscan hstatus rfl rfl
        (fun _ _ heq => (by cases heq)) (fun _ _ _ heq => (by cases heq)) rfl rfl
  | @keeps _ _ hcopies hshown htx hscanning hno hno' hfrom =>
    have hl := hl hfrom
    refine ⟨fun r hr => hl.copies r (hcopies ▸ hr), fun id hid => hl.pending id (hscanning ▸ hid),
      fun context row heq => absurd heq (hno context row),
      fun context row result heq => absurd heq (hno' context row result), fun r hr hclean => ?_,
      fun tx h hclean => ?_⟩
    · rw [hscanning]
      exact hl.shown r (hshown ▸ hr) hclean
    · rw [hshown]
      exact hl.tx tx (htx ▸ h) hclean
  | @amends context row tx patch result hscan patch' hscan' =>
    have hl := hl fun _ _ heq => (by cases heq)
    obtain ⟨hurl, hmime, -⟩ := apply_same patch row
    have hstatus : (patch.apply row).scanStatus = row.scanStatus := by
      rw [apply_scanStatus, hscan]
      rfl
    have hscanning : (Local.presenting [patch.apply row] (some { tx with patch := patch' })).scanning? =
        (Local.previewed context row (some tx) result).scanning? := scanning_amended hscan'
    refine knows_showing rfl rfl (fun _ _ heq => (by cases heq)) (fun _ _ _ heq => (by cases heq))
      ((hl.copies row List.mem_cons_self).congr (Patch.apply_id _ _) hurl hmime) ?_ ?_ ?_
    · intro id hid
      exact hl.pending id (hscanning ▸ hid)
    · intro hclean
      obtain ⟨haccepted, hwhy⟩ := hl.shown row List.mem_cons_self (hstatus ▸ hclean)
      rw [hscanning, Patch.apply_id, hurl]
      exact ⟨haccepted.congr hurl hmime, hwhy⟩
    · intro x hx hclean
      cases hx
      obtain ⟨r, hr, hid, hrclean⟩ := hl.tx tx rfl (hscan' ▸ hclean)
      rw [List.mem_singleton.mp hr] at hid hrclean
      exact ⟨(Patch.apply_id _ _).trans hid, hstatus.trans hrclean⟩
  | @updates context row current result tx hcurrent hscan =>
    obtain ⟨hurl, hmime, -⟩ := apply_same tx.patch current
    have hstatus : (tx.patch.apply current).scanStatus = current.scanStatus := by
      rw [apply_scanStatus, hscan]
      rfl
    refine knows_showing rfl rfl (fun _ _ heq => (by cases heq)) (fun _ _ _ heq => (by cases heq))
      ((copy_of_mem hs.registered hcurrent).congr (Patch.apply_id _ _) hurl hmime) ?_ ?_ ?_
    · intro id hid
      have hscans := (scanning_of_scans hid).2
      unfold Tx.scans at hscans
      rw [hscan] at hscans
      cases hscans
    · intro hclean
      obtain ⟨haccepted, hall⟩ := shown_of_mem hs hcurrent (hstatus ▸ hclean)
      rw [hurl]
      exact ⟨haccepted.congr hurl hmime, Or.inr hall⟩
    · intro x hx hclean
      cases hx
      rw [hscan] at hclean
      cases hclean


/-! ### Verdicts -/

theorem scanning_of_goes (h : Goes accepts op s l l') (hid : l'.scanning? = some id) :
    l.scanning? = some id ∨ (op = .read ∧ ∃ context row, l = .called (.completeUpload context id) ∧
      row ∈ s.attachments.rows ∧ row.id = id ∧ row.scanStatus = .pending) := by
  cases h with
  | idles hidle =>
    rw [hidle.scanning] at hid
    cases hid
  | shows | previews => cases hid
  | @starts context id' row hrow hrowid hpending hop =>
    have hsame : some row.id = some id := hid
    rw [hrowid] at hsame
    cases hsame
    exact Or.inr ⟨hop, context, row, rfl, hrow, hrowid, hpending⟩
  | inspects | recognises | judges => exact Or.inl hid
  | rejects hfrom =>
    rcases hfrom with rfl | rfl
    · exact Or.inl hid
    · exact Or.inl hid
  | fails hfrom =>
    rcases hfrom with rfl | rfl | rfl
    · exact Or.inl hid
    · exact Or.inl hid
    · exact Or.inl hid
  | @writes _ context row current result tx _ _ htx _ _ hl' =>
    have hscans : ((some tx).filter Tx.scans).map Tx.id = some id := by
      rcases hl' with rfl | rfl | rfl
      · exact hid
      · exact hid
      · exact hid
    refine Or.inl ?_
    show some row.id = some id
    rw [← htx, (scanning_of_scans hscans).1]
  | keeps _ _ _ hscanning => exact Or.inl (hscanning ▸ hid)
  | amends _ _ hscan' => exact Or.inl ((scanning_amended hscan').symm.trans hid)
  | updates tx _ hscan =>
    have hscans := (scanning_of_scans hid).2
    unfold Tx.scans at hscans
    rw [hscan] at hscans
    cases hscans

theorem shown_of_goes (h : Goes accepts op s l l') (hrow : row ∈ l'.shown) :
    (∃ r, (r ∈ s.attachments.rows ∨ r ∈ l.shown) ∧ r.id = row.id ∧ r.scanStatus = row.scanStatus) ∨
      l.scanning? = some row.id := by
  cases h with
  | idles hidle =>
    rw [hidle.shown] at hrow
    cases hrow
  | shows hrows => exact Or.inl ⟨row, Or.inl (hrows row hrow), rfl, rfl⟩
  | starts | inspects | rejects | fails | recognises | judges => cases hrow
  | previews hmem =>
    rw [List.mem_singleton.mp hrow]
    exact Or.inl ⟨_, Or.inl hmem, rfl, rfl⟩
  | @writes _ context r current result tx _ hid _ _ _ hl' =>
    have hshown : row = tx.patch.apply current := by
      rcases hl' with rfl | rfl | rfl
      · exact List.mem_singleton.mp hrow
      · exact List.mem_singleton.mp hrow
      · exact List.mem_singleton.mp hrow
    refine Or.inr ?_
    show some r.id = some row.id
    rw [hshown, Patch.apply_id, hid]
  | keeps _ hshown => exact Or.inl ⟨row, Or.inr (hshown ▸ hrow), rfl, rfl⟩
  | @amends context r tx patch result hscan =>
    rw [List.mem_singleton.mp hrow]
    refine Or.inl ⟨r, Or.inr List.mem_cons_self, (Patch.apply_id _ _).symm, ?_⟩
    rw [apply_scanStatus, hscan]
    rfl
  | @updates context r current result tx hcurrent hscan =>
    rw [List.mem_singleton.mp hrow]
    refine Or.inl ⟨current, Or.inl hcurrent, (Patch.apply_id _ _).symm, ?_⟩
    rw [apply_scanStatus, hscan]
    rfl

/-- An attachment that has been judged infected or failed, and may have been removed since. -/
structure Judged (s : Store) (id : Uuid) : Prop where
  issued : id ∈ s.issued
  rows : ∀ r ∈ s.attachments.rows, r.id = id → r.scanStatus = .infected ∨ r.scanStatus = .failed

/-- A session is not about to show it as clean. -/
structure Local.Leaves (l : Local) (id : Uuid) : Prop where
  scanning : l.scanning? ≠ some id
  shown : ∀ r ∈ l.shown, r.id = id → r.scanStatus ≠ .clean

theorem Judged.step (h : Judged s id) (hl : l.Leaves id) (hmoved : Moved op s l s') :
    Judged s' id := by
  obtain ⟨new, hfresh, hrows⟩ := hmoved.rows
  refine ⟨hmoved.issued h.issued, fun r' hr' hid => ?_⟩
  rcases hrows r' hr' with ⟨r, hr, hrid, hfate⟩ | hnew
  · rcases hfate.status with hsame | ⟨rows, tx, hop, rfl, htx, hscans⟩
    · rw [hsame]
      exact h.rows r hr (hrid.trans hid)
    · refine absurd ?_ hl.scanning
      show ((some tx).filter Tx.scans).map Tx.id = some id
      rw [Option.filter_some, if_pos hscans, Option.map_some, ← htx, hrid, hid]
  · exact absurd (hid ▸ h.issued) (hfresh r' hnew).id

theorem Local.Leaves.step (h : l.Leaves id) (hs : Judged s id) (hgoes : Goes accepts op s l l') :
    l'.Leaves id := by
  constructor
  · intro hid
    rcases scanning_of_goes hgoes hid with hold | ⟨-, context, row, -, hrow, hrowid, hpending⟩
    · exact h.scanning hold
    · rcases hs.rows row hrow hrowid with hstatus | hstatus
      · rw [hstatus] at hpending
        cases hpending
      · rw [hstatus] at hpending
        cases hpending
  · intro row hrow hid hclean
    rcases shown_of_goes hgoes hrow with ⟨r, hr | hr, hrid, hstatus⟩ | hscanning
    · rcases hs.rows r hr (hrid.trans hid) with hjudged | hjudged
      · rw [hstatus, hclean] at hjudged
        cases hjudged
      · rw [hstatus, hclean] at hjudged
        cases hjudged
    · exact h.shown r hr (hrid.trans hid) (hstatus.trans hclean)
    · exact h.scanning (hid ▸ hscanning)

theorem Knows.leaves (h : Knows accepts s l) (hrow : row ∈ s.attachments.rows)
    (hjudged : row.scanStatus = .infected ∨ row.scanStatus = .failed) : l.Leaves row.id := by
  have hnot : row.scanStatus ≠ .pending ∧ row.scanStatus ≠ .clean := by
    rcases hjudged with hstatus | hstatus
    · rw [hstatus]
      decide
    · rw [hstatus]
      decide
  have hscanning : l.scanning? ≠ some row.id := fun hid => hnot.1 (h.pending row.id hid row hrow rfl)
  refine ⟨hscanning, fun r hr hid hclean => ?_⟩
  rcases (h.shown r hr hclean).2 with hscan | hall
  · exact hscanning (hid ▸ hscan)
  · exact hnot.2 (hall row hrow ((h.copies r (mem_copies_of_shown hr)).same row hrow hid.symm).1)

/-! ### Runs -/

variable {w : World Store Local}

theorem settled_put {i : ℕ} {a : Action} (hg : Settled w (.act i a)) (hi : w.sessions[i]? = some l)
    (hm : m ∈ w.sessions) :
    ∀ key object, a.op = .put → l = .called (.put key object) →
      Replaceable w.store key ∧ m.reads key = false := by
  intro key object hop hl
  obtain ⟨now, op⟩ := a
  cases hop
  subst hl
  unfold Settled at hg
  simp only [hi] at hg
  exact ⟨hg.1, hg.2 m hm⟩

theorem settled_read {i : ℕ} {a : Action} (hg : Settled w (.act i a)) (hi : w.sessions[i]? = some l)
    (hm : m ∈ w.sessions) (hop : a.op = .read) {context : Context}
    (hl : l = .called (.completeUpload context id)) : m.scanning? ≠ some id := by
  obtain ⟨now, op⟩ := a
  cases hop
  subst hl
  unfold Settled at hg
  simp only [hi] at hg
  exact hg m hm

theorem moved_clock (now : ℤ) : Moved .crash s .stopped { s with clock := now } where
  rows := ⟨none, fun _ hnew => (by cases hnew), fun row hrow => Or.inl ⟨row, hrow, rfl, .stays⟩⟩
  objects := .same
  targets _ h := h
  issued := List.Subset.refl _

/-- Time alone changes nothing; `crash` stands for a step that does nothing else. -/
theorem Knows.later (h : Knows accepts s l) (now : ℤ) : Knows accepts { s with clock := now } l :=
  h.step (moved_clock now) (fun _ _ hop => (by cases hop))
    fun _ _ hop => (by cases hop)

theorem Sound.later (hs : Sound accepts s) (now : ℤ) : Sound accepts { s with clock := now } :=
  hs.step (knows_idle idle_stopped) (moved_clock now) fun _ _ hop => (by cases hop)

/-- `judged` are attachments of which the verdict is known already. -/
theorem scan_rules (judged : Set Uuid) : JointRules (program accepts) Settled
    (fun s => Sound accepts s ∧ ∀ id ∈ judged, Judged s id)
    (fun s l => Knows accepts s l ∧ ∀ id ∈ judged, l.Leaves id) Single where
  symm _ _ h := fun id hm hl => h id hl hm
  enter _ _ _ := by
    refine ⟨knows_idle ⟨rfl, rfl, rfl, fun _ h => (by cases h)⟩, fun _ _ => ⟨?_, ?_⟩⟩
    · intro h
      cases h
    · intro _ h
      cases h
  apart _ _ := fun _ h => (by cases h)
  own w i l a s' l' hg hi hs hl hmove := by
    obtain ⟨-, hproceed⟩ := move_cases hmove
    have hmoved := proceed_moved hproceed
    have hgoes := proceed_goes hproceed
    have hknows := hl.1.later a.now
    have hsound := hs.1.later a.now
    have hput := settled_put hg hi (List.mem_of_getElem? hi)
    have hnext := hsound.step hknows hmoved fun key object hop hcalled => (hput key object hop hcalled).1
    have hjudged : ∀ id ∈ judged, Judged s' id := by
      intro id hid
      have hlater : Judged { w.store with clock := a.now } id :=
        ⟨(hs.2 id hid).issued, (hs.2 id hid).rows⟩
      exact hlater.step (hl.2 id hid) hmoved
    refine ⟨⟨hnext, hjudged⟩, ?_, fun id hid => (hl.2 id hid).step (hjudged id hid) hgoes⟩
    refine knows_goes hnext (fun hno => hknows.step hmoved ?_ hput) hgoes
    intro rows tx _ hpresenting
    exact absurd hpresenting (hno rows (some tx))
  other w i l a s' l' j m hg hi _ hj hs hl hm hsingle _ _ hmove := by
    obtain ⟨-, hproceed⟩ := move_cases hmove
    have hmoved := proceed_moved hproceed
    have hmem := List.mem_of_getElem? hj
    refine ⟨⟨(hm.1.later a.now).step hmoved ?_ (settled_put hg hi hmem), hm.2⟩, fun id hid => ?_⟩
    · intro rows tx _ hpresenting hscans
      have hscanning : l.scanning? = some tx.id := by
        rw [hpresenting]
        show ((some tx).filter Tx.scans).map Tx.id = some tx.id
        rw [Option.filter_some, if_pos hscans, Option.map_some]
      exact ⟨hsingle tx.id hscanning, hl.1.pending tx.id hscanning⟩
    · rcases scanning_of_goes (proceed_goes hproceed) hid with hold | ⟨hop, context, row, hcalled, -⟩
      · exact hsingle id hold
      · exact settled_read hg hi hmem hop hcalled

/-- The rows of an answer. -/
def Local.answers : Local → List Attachment
  | .presenting rows _ => rows
  | _ => []

/-- Where an answer has a URL, what the bucket has for it has been accepted. -/
def ShowsAccepted (accepts : Bytes → Bool) (w : World Store Local) : Prop :=
  ∀ l ∈ w.sessions, ∀ row ∈ l.answers, ∀ key ∈ (presentAttachment row).url,
    ∀ object ∈ w.store.objects key, accepts object.body = true ∧
      contentMatchesMimeType row.type (object.body.take attachmentSignatureBytes) = true

/-- An attachment that is judged infected or failed is not shown as clean. -/
def NeverCleanAgain (w w' : World Store Local) : Prop :=
  ∀ row ∈ w.store.attachments.rows, row.scanStatus = .infected ∨ row.scanStatus = .failed →
    ∀ l ∈ w'.sessions, ∀ shown ∈ l.answers, shown.id = row.id → shown.scanStatus ≠ .clean

instance (accepts : Bytes → Bool) (w : World Store Local) : Decidable (ShowsAccepted accepts w) :=
  inferInstanceAs (Decidable (∀ l ∈ w.sessions, ∀ row ∈ l.answers,
    ∀ key ∈ (presentAttachment row).url, ∀ object ∈ w.store.objects key, _ ∧ _))

instance (w w' : World Store Local) : Decidable (NeverCleanAgain w w') :=
  inferInstanceAs (Decidable (∀ row ∈ w.store.attachments.rows, _ → ∀ l ∈ w'.sessions,
    ∀ shown ∈ l.answers, _ → _))

theorem sound_start (accepts : Bytes → Bool) (tasks projects : Table TargetRow TargetRow.id) :
    Sound accepts (Store.start tasks projects) :=
  ⟨registered_start tasks projects, fun _ h => (by cases h)⟩

theorem mem_shown_of_answers (h : row ∈ l.answers) : row ∈ l.shown := by
  cases l with
  | presenting => exact h
  | _ => cases h

theorem shows_accepted
    (h : ∀ (i : ℕ) (l : Local), w.sessions[i]? = some l → Knows accepts w.store l) :
    ShowsAccepted accepts w := by
  intro l hl row hrow key hkey object hobject
  obtain ⟨i, hi⟩ := List.mem_iff_getElem?.mp hl
  unfold presentAttachment at hkey
  split at hkey
  · cases hkey
  · next hclean =>
    cases hkey
    rw [not_not] at hclean
    obtain ⟨hscanned, hrecognised⟩ := ((h i l hi).shown row (mem_shown_of_answers hrow) hclean).1
    exact ⟨hscanned object hobject, hrecognised object hobject⟩

/-- **Only scanned files are shown**, and verdicts are final, where a file is not replaced once a
completion has begun to read it and the completions of an attachment do not overlap. -/
theorem scanned_only (accepts : Bytes → Bool) (tasks projects : Table TargetRow TargetRow.id)
    (events more : List (Event Call Action))
    (hg : Runs.Guarded (Sessions.step (program accepts)) Settled
      (World.closed (Store.start tasks projects)) (events ++ more)) :
    ShowsAccepted accepts (Sessions.run (program accepts) (World.closed (Store.start tasks projects))
        (events ++ more)) ∧
      NeverCleanAgain
        (Sessions.run (program accepts) (World.closed (Store.start tasks projects)) events)
        (Sessions.run (program accepts) (World.closed (Store.start tasks projects))
          (events ++ more)) := by
  have hfirst := run_joint (scan_rules ∅) events
    (World.holds_closed ⟨sound_start accepts tasks projects, fun _ h => absurd h (Set.notMem_empty _)⟩)
    World.pairs_closed (Runs.guarded_of_append hg)
  have hrest := Runs.guarded_drop hg
  rw [run_append]
  generalize hw : Sessions.run (program accepts) (World.closed (Store.start tasks projects)) events = w
    at hfirst ⊢
  rw [show Runs.run _ _ _ = w from hw] at hrest
  obtain ⟨hholds, hpairs⟩ := hfirst
  constructor
  · have hlast := (run_joint (scan_rules ∅) more hholds hpairs hrest).1
    exact shows_accepted fun i l hi => (hlast.sessions i l hi).1
  · intro row hrow hjudged l hl shown hshown hid
    have hregistered := hholds.store.1.registered
    have hnow : World.Holds (program accepts)
        (fun s => Sound accepts s ∧ ∀ id ∈ ({row.id} : Set Uuid), Judged s id)
        (fun s l => Knows accepts s l ∧ ∀ id ∈ ({row.id} : Set Uuid), l.Leaves id) w := by
      refine ⟨⟨hholds.store.1, ?_⟩, fun i m hi => ⟨(hholds.sessions i m hi).1, ?_⟩, hholds.apart⟩
      · rintro _ rfl
        refine ⟨hregistered.id row hrow, fun r hr hrid => ?_⟩
        rw [Table.eq_of_mem hr hrow hrid]
        exact hjudged
      · rintro _ rfl
        exact (hholds.sessions i m hi).1.leaves hrow hjudged
    have hlast := (run_joint (scan_rules {row.id}) more hnow hpairs hrest).1
    obtain ⟨i, hi⟩ := List.mem_iff_getElem?.mp hl
    exact ((hlast.sessions i l hi).2 row.id rfl).shown shown (mem_shown_of_answers hshown) hid

/-! A file that is replaced while its URL is valid: after the verdict, and between two completions. -/

def sampleScanner (body : Bytes) : Bool := !body.contains 77

def putEvents (i : ℕ) (body : Bytes) (now : ℤ) : List (Event Call Action) :=
  [.enter (.put sampleKey ⟨body, "text/plain"⟩), .act i ⟨now, .put⟩]

/-- The steps of a session at one time. -/
def actEvents (i : ℕ) (now : ℤ) (ops : List Op) : List (Event Call Action) :=
  ops.map fun op => .act i ⟨now, op⟩

def uploadedEvents : List (Event Call Action) :=
  [.enter (.createUpload sampleContext sampleInput), .act 0 ⟨0, .create 7 "2026/01" 8⟩] ++
    putEvents 1 [72, 105] 1 ++ [.enter (.completeUpload sampleContext 7)] ++
      actEvents 2 2 [.read, .inspect, .inspect, .scan "engine" none]

def verdictEvents : List (Event Call Action) := actEvents 2 3 [.write, .preview none, .write, .commit]

def listEvents (i : ℕ) : List (Event Call Action) :=
  [.enter (.list sampleContext sampleInput.target), .act i ⟨5, .read⟩]

theorem scanned_only_listed :
    ShowsAccepted sampleScanner (Sessions.run (program sampleScanner)
        (World.closed (Store.start sampleTasks Table.empty))
        (uploadedEvents ++ (verdictEvents ++ listEvents 3))) ∧
      NeverCleanAgain
        (Sessions.run (program sampleScanner) (World.closed (Store.start sampleTasks Table.empty))
          uploadedEvents)
        (Sessions.run (program sampleScanner) (World.closed (Store.start sampleTasks Table.empty))
          (uploadedEvents ++ (verdictEvents ++ listEvents 3))) :=
  scanned_only sampleScanner sampleTasks Table.empty uploadedEvents (verdictEvents ++ listEvents 3)
    (by decide +kernel)

/-- The second completion finds the other file infected. -/
def infectedEvents : List (Event Call Action) :=
  uploadedEvents ++ putEvents 3 [77, 87] 2 ++ [.enter (.completeUpload sampleContext 7)] ++
    actEvents 4 2 [.read, .inspect, .inspect, .scan "engine" none, .write, .erase none, .commit]

theorem replaced_after_scan :
    ¬ ShowsAccepted sampleScanner (Sessions.run (program sampleScanner)
        (World.closed (Store.start sampleTasks Table.empty))
        (uploadedEvents ++ verdictEvents ++ putEvents 3 [77, 87] 4 ++ listEvents 4)) ∧
      ¬ NeverCleanAgain
        (Sessions.run (program sampleScanner) (World.closed (Store.start sampleTasks Table.empty))
          infectedEvents)
        (Sessions.run (program sampleScanner) (World.closed (Store.start sampleTasks Table.empty))
          (infectedEvents ++ (verdictEvents ++ listEvents 5))) := by
  decide +kernel

end CalmBoard.Attachments
