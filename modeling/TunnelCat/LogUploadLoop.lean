import Mathlib.Algebra.Order.BigOperators.Group.List
import Mathlib.Algebra.Order.Group.Nat
import TunnelCat.LogFiles

/-!
The loop of a log upload (`upload` and `uploadOneChunk` in `snc/core/log_upload.go`), which itself
writes three lines for each chunk into the log that it reads. A chunk that leaves a backlog has read
3 MiB, so the bytes behind the cursor become fewer (`chunk_decreases`), if the cursor is kept and the
last file can be read.
-/
namespace TunnelCat.LogUploadLoop
open LogFiles List
open ByteStrings (GoString)

inductive Line
  | cursor (file : GoString) (offset : Int) (found : Bool) (files : Nat) (oldest newest : GoString)
  | read (bytes : Nat) (file : GoString) (offset backlog : Int) (files : Nat)
  | sent (zip raw : Nat) (backlog : Int)

def Line.names : Line → Nat
  | .cursor file _ _ _ oldest newest => file.length + oldest.length + newest.length
  | .read _ file _ _ _ => file.length
  | .sent _ _ _ => 0

/-- The text of a line as it is written to the file, with the time, the framing and quoted
    names. -/
structure Printer where
  text : Line → List UInt8
  short : ∀ l, (text l).length ≤ 1024 + 4 * l.names

/-- The log directory, with names as file systems allow them, and the file that the log is
    written to. -/
structure World where
  dir : Dir
  current : Stamp
  short : ∀ name ∈ dir, name.length ≤ 255

def World.put (w : World) (name : GoString) (bytes : List UInt8) (short : name.length ≤ 255) : World where
  dir := w.dir.insert name (.file bytes)
  current := w.current
  short := by
    intro other member
    rcases (AList.mem_insert w.dir).mp member with rfl | old
    · exact short
    · exact w.short other old

def World.log (w : World) (line : List UInt8) : Option Stamp → World
  | none =>
    match w.dir.lookup w.current.name with
    | some (.file bytes) => w.put w.current.name (bytes ++ line) (stamp_short w.current)
    | _ => w
  | some t =>
    match w.dir.lookup t.name with
    | some (.file bytes) => { w.put t.name (bytes ++ line) (stamp_short t) with current := t }
    | some .folder => w
    | none => { w.put t.name line (stamp_short t) with current := t }

/-- What a chunk meets: faults of files, a cursor file that cannot be read or written, where
    its lines begin a new file, and what else is sent. -/
structure Surroundings where
  fault : GoString → Fault
  unread : Bool
  unstat : GoString → Bool
  written : Bool
  stats : List UInt8
  zip : Nat
  rotate : Line → Option Stamp

def readLoop (d : Dir) (fault : GoString → Fault) : List (GoString × Int) → Progress → Progress
  | [], p => p
  | (name, offset) :: todo, p =>
    if p.buf.length < maxRawLogPerUpload then readLoop d fault todo (readFile d p name offset (fault name)) else p

def backlogBytes (d : Dir) (unstat : GoString → Bool) : List GoString → Int → Int
  | [], _ => 0
  | f :: rest, start =>
    match d.lookup f with
    | some (.file bytes) =>
      if unstat f then backlogBytes d unstat rest 0
      else (if start < bytes.length then bytes.length - start else 0) + backlogBytes d unstat rest 0
    | _ => backlogBytes d unstat rest 0

structure Chunk where
  world : World
  p : Progress
  backlog : Int

def World.cursor (w : World) (e : Surroundings) : GoString × Int := if e.unread then ([],0) else loadLogUploadCursor w.dir

variable (F : Printer)

def rest (files : List GoString) (cursor newFile : GoString) : List GoString :=
  (tailFrom files newFile).getD ((tailFrom files cursor).getD files)

def World.firstLine (w : World) (e : Surroundings) (oldest : GoString) (more : List GoString) : Line :=
  .cursor (w.cursor e).1 (w.cursor e).2 ((oldest :: more).contains (w.cursor e).1) (oldest :: more).length oldest
    ((oldest :: more).getLast (cons_ne_nil oldest more))

def World.begun (w : World) (e : Surroundings) (oldest : GoString) (more : List GoString) : World :=
  w.log (F.text (w.firstLine e oldest more)) (e.rotate (w.firstLine e oldest more))

def World.read (w : World) (e : Surroundings) (oldest : GoString) (more : List GoString) : Progress :=
  readLoop (w.begun F e oldest more).dir e.fault (toRead (oldest :: more) (w.cursor e)) ⟨[],(w.cursor e).1,(w.cursor e).2⟩

def World.backlog (w : World) (e : Surroundings) (oldest : GoString) (more : List GoString) : Int :=
  backlogBytes (w.begun F e oldest more).dir e.unstat
    (rest (oldest :: more) (w.cursor e).1 (w.read F e oldest more).newFile) (w.read F e oldest more).newOffset

def World.secondLine (w : World) (e : Surroundings) (oldest : GoString) (more : List GoString) : Line :=
  .read (w.read F e oldest more).buf.length (w.read F e oldest more).newFile (w.read F e oldest more).newOffset
    (w.backlog F e oldest more) (rest (oldest :: more) (w.cursor e).1 (w.read F e oldest more).newFile).length

def readUnuploadedLog (w : World) (e : Surroundings) : Chunk :=
  match logFiles w.dir with
  | [] => ⟨w,⟨[],[],0⟩,0⟩
  | oldest :: more =>
    ⟨(w.begun F e oldest more).log (F.text (w.secondLine F e oldest more)) (e.rotate (w.secondLine F e oldest more)),
      w.read F e oldest more,w.backlog F e oldest more⟩

def World.save (w : World) (p : Progress) (written : Bool) : World where
  dir := saveLogUploadCursor w.dir p.newFile p.newOffset written
  current := w.current
  short := by
    intro name member
    by_cases own : name = logUploadCursorFile
    · rw [own]
      decide +kernel
    · refine w.short name (AList.lookup_isSome.mp ?_)
      rw [← lookup_save w.dir p.newFile p.newOffset written own]
      exact AList.lookup_isSome.mpr member

def Chunk.lastLine (chunk : Chunk) (e : Surroundings) : Line := .sent e.zip chunk.p.buf.length chunk.backlog

def Chunk.sent (chunk : Chunk) (e : Surroundings) : World :=
  (chunk.world.save chunk.p e.written).log (F.text (chunk.lastLine e)) (e.rotate (chunk.lastLine e))

def uploadOneChunk (w : World) (e : Surroundings) : Option World :=
  if (readUnuploadedLog F w e).p.buf = [] ∧ e.stats = [] then none
  else if (readUnuploadedLog F w e).backlog > 0 then some ((readUnuploadedLog F w e).sent F e)
  else none

def upload (w : World) (es : Nat → Surroundings) : Nat → Option World
  | 0 => some w
  | n+1 => (upload w es n).bind (fun v => uploadOneChunk F v (es n))

/-- The cursor is kept, and the last file is read where the loop comes to it. -/
structure Steady (w : World) (e : Surroundings) : Prop where
  cursorRead : e.unread = false
  last : (readUnuploadedLog F w e).p.buf.length < maxRawLogPerUpload → ∀ f ∈ (logFiles w.dir).getLast?,
    e.fault f = .none ∧ ((loadLogUploadCursor w.dir).1 = f → 0 ≤ (loadLogUploadCursor w.dir).2)
  kept : 0 < (readUnuploadedLog F w e).backlog →
    loadLogUploadCursor ((readUnuploadedLog F w e).world.save (readUnuploadedLog F w e).p e.written).dir =
      ((readUnuploadedLog F w e).p.newFile,(readUnuploadedLog F w e).p.newOffset)

def size : Entry → Nat
  | .folder => 0
  | .file bytes => bytes.length

variable (c : GoString × Nat)

def weight (e : Sigma fun _ : GoString => Entry) : Nat :=
  if isLogFile e then if e.1 < c.1 then 0 else if e.1 = c.1 then size e.2 - c.2 else size e.2 else 0

theorem weight_le (e : Sigma fun _ : GoString => Entry) : weight c e ≤ size e.2 := by
  grind [weight]

def ahead (d : Dir) (c : GoString × Nat) : Nat := (d.entries.map (weight c)).sum

theorem sum_add_le {α : Type} {f g : α → Nat} {n : Nat} : ∀ {l : List α} {x : α}, (∀ y ∈ l, f y ≤ g y) → x ∈ l →
    f x + n ≤ g x → (l.map f).sum + n ≤ (l.map g).sum := by
  intro l
  induction l with
  | nil => intro x _ none_; cases none_
  | cons y rest ih =>
    intro x all member gain
    have here := all y mem_cons_self
    have later : ∀ z ∈ rest, f z ≤ g z := fun z inside => all z (mem_cons_of_mem y inside)
    rw [map_cons,sum_cons,map_cons,sum_cons]
    rcases mem_cons.mp member with rfl | inside
    · have others := sum_le_sum later
      omega
    · have others := ih later inside gain
      omega

theorem ahead_insert (d : Dir) (c : GoString × Nat) (name : GoString) (new : Entry) :
    ahead (d.insert name new) c = weight c ⟨name,new⟩ + ((d.entries.kerase name).map (weight c)).sum := by
  rw [ahead,AList.entries_insert,map_cons,sum_cons]

variable {d : Dir} {name : GoString} {bytes : List UInt8} {w : World}

theorem ahead_split {old : Entry} (found : d.lookup name = some old) (c : GoString × Nat) :
    ahead d c = weight c ⟨name,old⟩ + ((d.entries.kerase name).map (weight c)).sum := by
  have member : name ∈ d.entries.keys := AList.lookup_isSome.mp (by rw [found]; rfl)
  obtain ⟨b,first,second,-,parts,rest_⟩ := exists_of_kerase member
  obtain rfl : b = old := by
    have there : (⟨name,b⟩ : Sigma fun _ : GoString => Entry) ∈ d.entries := by
      rw [parts]
      exact mem_append_right _ mem_cons_self
    exact Option.some.inj ((AList.mem_lookup_iff.mpr there).symm.trans found)
  grind [ahead]

theorem ahead_none (none_ : d.lookup name = none) (c : GoString × Nat) :
    ahead d c = ((d.entries.kerase name).map (weight c)).sum := by
  have outside : name ∉ d.entries.keys := AList.lookup_eq_none.mp none_
  rw [ahead,kerase_of_notMem_keys outside]

theorem ahead_advance {c : GoString × Nat} {place n : Nat}
    (log : isLogName name = true) (found : d.lookup name = some (.file bytes))
    (after : c.1 < name ∨ c.1 = name ∧ c.2 ≤ place) (inside : place + n ≤ bytes.length) :
    ahead d (name,place + n) + n ≤ ahead d c := by
  refine sum_add_le (x := ⟨name,.file bytes⟩) ?_ (AList.mem_lookup_iff.mp found) ?_
  · grind [weight]
  grind [isLogFile,weight,size]

section
variable (w : World) (line : List UInt8) (t : Option Stamp)

theorem log_cases : (w.log line t).dir = w.dir ∨ ∃ u : Stamp,
    (∃ bytes, w.dir.lookup u.name = some (.file bytes) ∧ (w.log line t).dir = w.dir.insert u.name (.file (bytes ++ line))) ∨
      w.dir.lookup u.name = none ∧ (w.log line t).dir = w.dir.insert u.name (.file line) := by
  cases t with
  | none =>
    unfold World.log
    simp only
    split
    · rename_i bytes found
      exact .inr ⟨w.current,.inl ⟨bytes,found,rfl⟩⟩
    · exact .inl rfl
  | some u =>
    unfold World.log
    simp only
    split
    · rename_i bytes found
      exact .inr ⟨u,.inl ⟨bytes,found,rfl⟩⟩
    · exact .inl rfl
    · rename_i none_
      exact .inr ⟨u,.inr ⟨none_,rfl⟩⟩

theorem ahead_log (c : GoString × Nat) : ahead (w.log line t).dir c ≤ ahead w.dir c + line.length := by
  rcases log_cases w line t with same | ⟨u,⟨bytes,found,grown⟩ | ⟨none_,new⟩⟩
  · rw [same]
    exact Nat.le_add_right _ _
  · have more : weight c ⟨u.name,.file (bytes ++ line)⟩ ≤ weight c ⟨u.name,.file bytes⟩ + line.length := by
      simp only [weight,isLogFile,size,length_append]
      split_ifs <;> omega
    rw [grown,ahead_insert,ahead_split found]
    omega
  · have upto : weight c ⟨u.name,.file line⟩ ≤ line.length := weight_le c _
    rw [new,ahead_insert,ahead_none none_]
    omega

theorem lookup_log {name : GoString} {bytes : List UInt8} (found : w.dir.lookup name = some (.file bytes)) :
    ∃ bytes', (w.log line t).dir.lookup name = some (.file bytes') ∧ bytes.length ≤ bytes'.length := by
  grind [log_cases]

theorem load_log : loadLogUploadCursor (w.log line t).dir = loadLogUploadCursor w.dir := by
  grind [log_cases,load_insert,logName_ne_cursor,stamp_isLogName]

end

theorem ahead_save (w : World) (p : Progress) (written : Bool) (c : GoString × Nat) :
    ahead (w.save p written).dir c ≤ ahead w.dir c := by
  show ahead (saveLogUploadCursor w.dir p.newFile p.newOffset written) c ≤ _
  unfold saveLogUploadCursor
  split
  · exact Nat.le_refl _
  · split
    · exact Nat.le_refl _
    · split
      · have none_ (bytes : List UInt8) : weight c ⟨logUploadCursorFile,.file bytes⟩ = 0 := by
          have other : isLogFile ⟨logUploadCursorFile,.file bytes⟩ = false := by
            show isLogName logUploadCursorFile = false
            decide
          rw [weight,other,if_neg Bool.false_ne_true]
        rw [ahead_insert,none_,Nat.zero_add]
        cases found : w.dir.lookup logUploadCursorFile with
        | none => exact Nat.le_of_eq (ahead_none found c).symm
        | some old =>
          rw [ahead_split found]
          exact Nat.le_add_left _ _
      · exact Nat.le_refl _

def Valid (d : Dir) (c : GoString × Nat) : Prop :=
  isLogName c.1 = true ∧ ∃ bytes, d.lookup c.1 = some (.file bytes) ∧ c.2 ≤ bytes.length

def At (p : Progress) (c : GoString × Nat) : Prop := p.newFile = c.1 ∧ p.newOffset = c.2

section
variable {d : Dir} {fault : GoString → Fault} {bytes : List UInt8}

theorem at_add (p : Progress) (name : GoString) {place n : Nat} (inside : place + n ≤ bytes.length) :
    At (p.add name place ((bytes.drop place).take n)) (name,place + n) ∧
      (p.add name place ((bytes.drop place).take n)).buf.length = p.buf.length + n := by
  have length : ((bytes.drop place).take n).length = n := by
    rw [length_take,length_drop]
    omega
  refine ⟨⟨rfl,?_⟩,?_⟩
  · simp only [Progress.add]
    omega
  · simp only [Progress.add,length_append,length]

theorem readLoop_reached (d : Dir) (fault : GoString → Fault) : ∀ (todo : List (GoString × Int)) (p : Progress), (∀ x ∈ todo, isLogName x.1 = true) →
    (readLoop d fault todo p = p ∨ ∃ c, At (readLoop d fault todo p) c ∧ Valid d c) := by
  intro todo
  induction todo with
  | nil => intro p _; exact .inl rfl
  | cons x todo ih =>
    intro p logs
    rw [readLoop]
    split
    · have later := fun y member => logs y (mem_cons_of_mem x member)
      rcases readFile_cases d p x.1 x.2 (fault x.1) with ⟨same,-⟩ | ⟨bytes,place,n,found,piece,read,-⟩
      · rw [same]
        exact ih p later
      · rcases ih (readFile d p x.1 x.2 (fault x.1)) later with stays | goes
        · rw [stays,read]
          exact .inr ⟨_,(at_add p x.1 piece.inside).1,logs x mem_cons_self,bytes,found,piece.inside⟩
        · exact .inr goes
    · exact .inl rfl

structure Behind (d : Dir) (c : GoString × Nat) (todo : List (GoString × Int)) : Prop where
  sorted : (todo.map Prod.fst).Pairwise (· < ·)
  logs : ∀ x ∈ todo, isLogName x.1 = true
  inside : ∀ x ∈ todo, ∃ bytes, d.lookup x.1 = some (.file bytes) ∧ x.2 ≤ bytes.length
  after : ∀ x ∈ todo, c.1 < x.1 ∨ c.1 = x.1 ∧ c.2 ≤ x.2

theorem readLoop_ahead (d : Dir) (fault : GoString → Fault) : ∀ (todo : List (GoString × Int)) (p : Progress) (c : GoString × Nat), Behind d c todo → At p c →
    ∃ c', At (readLoop d fault todo p) c' ∧ ahead d c' + (readLoop d fault todo p).buf.length ≤ ahead d c + p.buf.length := by
  intro todo
  induction todo with
  | nil => intro p c _ at_; exact ⟨c,at_,Nat.le_refl _⟩
  | cons x todo ih =>
    intro p c behind at_
    obtain ⟨first,sorted⟩ := pairwise_cons.mp behind.sorted
    rw [readLoop]
    split
    · rcases readFile_cases d p x.1 x.2 (fault x.1) with ⟨same,-⟩ | ⟨bytes,place,n,found,piece,read,-⟩
      · rw [same]
        refine ih p c ⟨sorted,?_,?_,?_⟩ at_
        · exact fun y member => behind.logs y (mem_cons_of_mem x member)
        · exact fun y member => behind.inside y (mem_cons_of_mem x member)
        · exact fun y member => behind.after y (mem_cons_of_mem x member)
      · obtain ⟨reached,length⟩ := at_add p x.1 piece.inside
        rw [read]
        obtain ⟨c',at',less⟩ := ih _ (x.1,place + n) ⟨sorted,fun y member => behind.logs y (mem_cons_of_mem x member),
          fun y member => behind.inside y (mem_cons_of_mem x member),
          fun y member => .inl (first y.1 (mem_map_of_mem member))⟩ reached
        refine ⟨c',at',?_⟩
        have place_ : c.1 < x.1 ∨ c.1 = x.1 ∧ c.2 ≤ place := by
          grind [behind.after,behind.inside,piece.start,clamp]
        have gain := ahead_advance (behind.logs x mem_cons_self) found place_ piece.inside
        omega
    · exact ⟨c,at_,Nat.le_refl _⟩

theorem readLoop_full {todo : List (GoString × Int)} {p : Progress} (full : maxRawLogPerUpload ≤ p.buf.length) :
    readLoop d fault todo p = p := by
  cases todo with
  | nil => rfl
  | cons x todo => rw [readLoop,if_neg (by omega)]

theorem readLoop_append (second : List (GoString × Int)) : ∀ (first : List (GoString × Int)) (p : Progress),
    readLoop d fault (first ++ second) p = readLoop d fault second (readLoop d fault first p) := by
  intro first
  induction first with
  | nil => intro p; rfl
  | cons x first ih =>
    grind [readLoop,readLoop_full]

theorem readLoop_last {first : List (GoString × Int)} {p : Progress} {name : GoString} {offset : Int}
    (fine : fault name = .none) (low : 0 ≤ offset) (found : d.lookup name = some (.file bytes))
    (room : (readLoop d fault (first ++ [(name,offset)]) p).buf.length < maxRawLogPerUpload) :
    At (readLoop d fault (first ++ [(name,offset)]) p) (name,bytes.length) := by
  rw [readLoop_append] at room ⊢
  set q := readLoop d fault first p
  rw [readLoop] at room ⊢
  split at room
  · rename_i before
    rw [if_pos before]
    rw [readLoop] at room ⊢
    rcases readFile_cases d q name offset (fault name) with ⟨-,gone⟩ | ⟨bytes',place,n,there,piece,read,whole⟩
    · exact absurd found (gone fine low bytes)
    · grind [at_add,piece.inside]
  · rename_i full
    exact absurd room full

end

section
variable {oldest : GoString} {more : List GoString}

theorem toRead_last (oldest : GoString) (more : List GoString) (cursor : GoString × Int) : ∃ first offset,
    toRead (oldest :: more) cursor = first ++ [((oldest :: more).getLast (cons_ne_nil oldest more),offset)] ∧
      (offset = 0 ∨ cursor.1 = (oldest :: more).getLast (cons_ne_nil oldest more) ∧ offset = cursor.2) := by
  rcases toRead_cases (oldest :: more) cursor with ⟨before,rest,files,todo⟩ | ⟨-,todo⟩
  · rw [todo]
    rcases eq_nil_or_concat rest with rfl | ⟨init,l,rfl⟩
    · have last : (oldest :: more).getLast (cons_ne_nil oldest more) = cursor.1 := by
        simp only [files,getLast_append_singleton]
      exact ⟨[],cursor.2,by rw [last]; rfl,.inr ⟨last.symm,rfl⟩⟩
    · have last : (oldest :: more).getLast (cons_ne_nil oldest more) = l := by
        simp [files]
      exact ⟨(cursor.1,cursor.2) :: init.map (fun g => (g,0)),0,by rw [last]; simp,.inl rfl⟩
  · refine ⟨((oldest :: more).dropLast).map (fun g => (g,0)),0,?_,.inl rfl⟩
    grind [dropLast_append_getLast,map_singleton]

theorem tailFrom_last {files : List GoString} (sorted : files.Pairwise (· < ·)) (filled : files ≠ []) :
    tailFrom files (files.getLast filled) = some [files.getLast filled] := by
  have parts := dropLast_append_getLast filled
  have before : ∀ f ∈ files.dropLast, decide (f ≠ files.getLast filled) = true := by
    grind [mem_cons_self]
  have tail : files.dropWhile (fun f => decide (f ≠ files.getLast filled)) = [files.getLast filled] := by
    conv_lhs => arg 2; rw [← parts]
    rw [dropWhile_append_of_pos before]
    simp
  rw [tailFrom,tail]

variable {F} {w : World} {e : Surroundings}

theorem mem_files (files : logFiles w.dir = oldest :: more) {f : GoString} (member : f ∈ oldest :: more) :
    isLogName f = true ∧ ∃ bytes, w.dir.lookup f = some (.file bytes) := by
  rw [← files] at member
  exact mem_logFiles.mp member

theorem chunk_full (steady : Steady F w e) (left : 0 < (readUnuploadedLog F w e).backlog) :
    maxRawLogPerUpload ≤ (readUnuploadedLog F w e).p.buf.length := by
  by_contra room
  rw [Nat.not_le] at room
  have last := steady.last room
  cases files : logFiles w.dir with
  | nil =>
    simp only [readUnuploadedLog,files] at left
    omega
  | cons oldest more =>
    simp only [readUnuploadedLog,files] at left room
    rw [files] at last
    set final := (oldest :: more).getLast (cons_ne_nil oldest more) with final_
    obtain ⟨fine,low⟩ := last final (getLast?_eq_some_getLast (cons_ne_nil oldest more))
    have cursor : w.cursor e = loadLogUploadCursor w.dir := by
      rw [World.cursor,steady.cursorRead,if_neg Bool.false_ne_true]
    obtain ⟨first,offset,todo,place⟩ := toRead_last oldest more (w.cursor e)
    have start_ : 0 ≤ offset := by
      grind
    obtain ⟨-,bytes,found⟩ := mem_files files (getLast_mem (cons_ne_nil oldest more))
    obtain ⟨bytes',there,-⟩ := lookup_log w (F.text (w.firstLine e oldest more)) (e.rotate (w.firstLine e oldest more)) found
    have reached : At (w.read F e oldest more) (final,bytes'.length) := by
      rw [World.read,todo] at room ⊢
      exact readLoop_last fine start_ there room
    have sorted := logFiles_sorted w.dir
    rw [files] at sorted
    rw [World.backlog,reached.1,reached.2,rest,tailFrom_last sorted,Option.getD_some] at left
    have none_ : backlogBytes (w.begun F e oldest more).dir e.unstat [final] bytes'.length = 0 := by
      have there' : (w.begun F e oldest more).dir.lookup final = some (.file bytes') := there
      simp only [backlogBytes,there',lt_irrefl]
      split <;> rfl
    rw [none_] at left
    omega

variable {c : GoString × Nat}

theorem Valid.log (valid : Valid w.dir c) (line : List UInt8) (t : Option Stamp) :
    Valid (w.log line t).dir c := by
  obtain ⟨log,bytes,found,inside⟩ := valid
  obtain ⟨bytes',there,longer⟩ := lookup_log w line t found
  exact ⟨log,bytes',there,inside.trans longer⟩

theorem Valid.save (valid : Valid w.dir c) (p : Progress) (written : Bool) :
    Valid (w.save p written).dir c := by
  obtain ⟨log,bytes,found,inside⟩ := valid
  exact ⟨log,bytes,(lookup_save w.dir p.newFile p.newOffset written (logName_ne_cursor log)).trans found,inside⟩

variable {w' : World}

theorem chunk_cases (again : uploadOneChunk F w e = some w') :
    0 < (readUnuploadedLog F w e).backlog ∧ w' = (readUnuploadedLog F w e).sent F e ∧
      ∃ oldest more, logFiles w.dir = oldest :: more := by
  unfold uploadOneChunk at again
  grind [readUnuploadedLog]

theorem toRead_mem (cursor : GoString × Int) :
    ∀ x ∈ toRead (oldest :: more) cursor, x.1 ∈ oldest :: more := by
  intro x member
  rcases toRead_cases (oldest :: more) cursor with ⟨before,rest,parts,todo⟩ | ⟨-,todo⟩
  · grind
  grind

theorem chunk_reached (steady : Steady F w e) (again : uploadOneChunk F w e = some w') :
    ∃ c : GoString × Nat, At (readUnuploadedLog F w e).p c ∧ Valid w'.dir c ∧ loadLogUploadCursor w'.dir = (c.1,(c.2 : Int)) := by
  obtain ⟨left,rfl,oldest,more,files⟩ := chunk_cases again
  have full := chunk_full steady left
  have back := steady.kept left
  have reached : ∃ c, At (readUnuploadedLog F w e).p c ∧ Valid (readUnuploadedLog F w e).world.dir c := by
    simp only [readUnuploadedLog,files] at full ⊢
    rcases readLoop_reached (w.begun F e oldest more).dir e.fault (toRead (oldest :: more) (w.cursor e))
      ⟨[],(w.cursor e).1,(w.cursor e).2⟩
      (fun x member => (mem_files files (toRead_mem (w.cursor e) x member)).1) with nothing | ⟨c,at_,valid⟩
    · grind [World.read,maxRawLogPerUpload]
    · exact ⟨c,at_,valid.log _ _⟩
  obtain ⟨c,at_,valid⟩ := reached
  refine ⟨c,at_,(valid.save _ _).log _ _,?_⟩
  rw [Chunk.sent,load_log,back,at_.1,at_.2]

theorem short_name {w : World} {name : GoString} {bytes : List UInt8} (found : w.dir.lookup name = some (.file bytes)) :
    name.length ≤ 255 := w.short name (AList.lookup_isSome.mp (by rw [found]; rfl))

theorem toRead_behind {d : Dir} (files : logFiles w.dir = oldest :: more) (valid : Valid w.dir c)
    (grown : ∀ {name bytes}, w.dir.lookup name = some (.file bytes) →
      ∃ bytes', d.lookup name = some (.file bytes') ∧ bytes.length ≤ bytes'.length) :
    Behind d c (toRead (oldest :: more) (c.1,c.2)) := by
  have sorted := logFiles_sorted w.dir
  rw [files] at sorted
  obtain ⟨log,own,found,inside⟩ := valid
  have member : c.1 ∈ oldest :: more := by
    rw [← files]
    exact mem_logFiles.mpr ⟨log,own,found⟩
  rcases toRead_cases (oldest :: more) (c.1,(c.2 : Int)) with ⟨before,rest,parts,todo⟩ | ⟨outside,-⟩
  · have firsts : (toRead (oldest :: more) (c.1,(c.2 : Int))).map Prod.fst = c.1 :: rest := by
      rw [todo,map_cons,map_fst_whole]
    rw [parts] at sorted
    have sorted' := (pairwise_append.mp sorted).2.1
    refine ⟨by rw [firsts]; exact sorted',?_,?_,?_⟩
    · exact fun x there => (mem_files files (toRead_mem _ x there)).1
    · intro x there
      obtain ⟨bytes,there'⟩ := (mem_files files (toRead_mem _ x there)).2
      obtain ⟨bytes',now,longer⟩ := grown there'
      refine ⟨bytes',now,?_⟩
      rw [todo] at there
      rcases mem_cons.mp there with rfl | later
      · grind
      · obtain ⟨f,-,rfl⟩ := mem_map.mp later
        exact Int.natCast_nonneg _
    · intro x there
      rw [todo] at there
      rcases mem_cons.mp there with rfl | later
      · exact .inr ⟨rfl,Int.le_refl _⟩
      · obtain ⟨f,there',rfl⟩ := mem_map.mp later
        exact .inl ((pairwise_cons.mp sorted').1 f there')
  · exact absurd member outside

theorem ahead_sent (F : Printer) (chunk : Chunk) (e : Surroundings) (c : GoString × Nat) :
    ahead (chunk.sent F e).dir c ≤ ahead chunk.world.dir c + 1024 := by
  have line := ahead_log (chunk.world.save chunk.p e.written) (F.text (chunk.lastLine e)) (e.rotate (chunk.lastLine e)) c
  have saved := ahead_save chunk.world chunk.p e.written c
  have short := F.short (chunk.lastLine e)
  have names : (chunk.lastLine e).names = 0 := rfl
  rw [Chunk.sent]
  omega

theorem lines_short {c c' : GoString × Nat} (files : logFiles w.dir = oldest :: more) (valid : Valid w.dir c)
    (cursor : w.cursor e = (c.1,(c.2 : Int))) (valid' : Valid w'.dir c') (at_ : At (w.read F e oldest more) c') :
    (F.text (w.firstLine e oldest more)).length ≤ 4084 ∧ (F.text (w.secondLine F e oldest more)).length ≤ 2044 := by
  have first := F.short (w.firstLine e oldest more)
  have second := F.short (w.secondLine F e oldest more)
  obtain ⟨-,own,found,-⟩ := valid
  obtain ⟨-,own',found',-⟩ := valid'
  obtain ⟨-,old,oldFound⟩ := mem_files files mem_cons_self
  obtain ⟨-,new,newFound⟩ := mem_files files (getLast_mem (cons_ne_nil oldest more))
  have here := short_name found
  have there := short_name found'
  have oldest_ := short_name oldFound
  have newest_ := short_name newFound
  have names : (w.firstLine e oldest more).names ≤ 765 := by
    simp only [World.firstLine,Line.names,cursor]
    omega
  have name : (w.secondLine F e oldest more).names ≤ 255 := by
    simp only [World.secondLine,at_.1]
    exact there
  omega

theorem chunk_decreases (steady : Steady F w e) (again : uploadOneChunk F w e = some w')
    (valid : Valid w.dir c) (load : loadLogUploadCursor w.dir = (c.1,(c.2 : Int))) :
    ∃ c' : GoString × Nat, Valid w'.dir c' ∧ loadLogUploadCursor w'.dir = (c'.1,(c'.2 : Int)) ∧
      ahead w'.dir c' < ahead w.dir c := by
  obtain ⟨c',at_,valid',load'⟩ := chunk_reached steady again
  refine ⟨c',valid',load',?_⟩
  obtain ⟨left,rfl,oldest,more,files⟩ := chunk_cases again
  have full := chunk_full steady left
  have cursor : w.cursor e = (c.1,(c.2 : Int)) := by
    rw [World.cursor,steady.cursorRead,if_neg Bool.false_ne_true,load]
  have chunk : readUnuploadedLog F w e = ⟨(w.begun F e oldest more).log (F.text (w.secondLine F e oldest more))
      (e.rotate (w.secondLine F e oldest more)),w.read F e oldest more,w.backlog F e oldest more⟩ := by
    simp only [readUnuploadedLog,files]
  rw [chunk] at full at_ valid' ⊢
  obtain ⟨firstShort,secondShort⟩ := lines_short files valid cursor valid' at_
  -- What the loop reads comes off the bytes behind the cursor.
  have taken : ahead (w.begun F e oldest more).dir c' + (w.read F e oldest more).buf.length ≤
      ahead (w.begun F e oldest more).dir c := by
    have behind := toRead_behind (d := (w.begun F e oldest more).dir) files valid (fun found => lookup_log w _ _ found)
    obtain ⟨c'',at',less⟩ := readLoop_ahead (w.begun F e oldest more).dir e.fault _
      ⟨[],c.1,c.2⟩ c behind ⟨rfl,rfl⟩
    have read : w.read F e oldest more = readLoop (w.begun F e oldest more).dir e.fault (toRead (oldest :: more) (c.1,(c.2 : Int)))
        ⟨[],c.1,c.2⟩ := by rw [World.read,cursor]
    rw [← read] at at' less
    obtain rfl : c'' = c' := Prod.ext (at'.1.symm.trans at_.1) (Int.ofNat.inj (at'.2.symm.trans at_.2))
    exact less
  -- The three lines of the chunk add less.
  have first := ahead_log w (F.text (w.firstLine e oldest more)) (e.rotate (w.firstLine e oldest more)) c
  have second := ahead_log (w.begun F e oldest more) (F.text (w.secondLine F e oldest more))
    (e.rotate (w.secondLine F e oldest more)) c'
  have third := ahead_sent F ⟨(w.begun F e oldest more).log (F.text (w.secondLine F e oldest more))
    (e.rotate (w.secondLine F e oldest more)),w.read F e oldest more,w.backlog F e oldest more⟩ e c'
  have large : 3145728 ≤ (w.read F e oldest more).buf.length := full
  simp only [World.begun] at first second third taken ⊢
  omega

end

/-- `upload` makes finitely many requests if each chunk is read and remembered as it should be. -/
theorem upload_ends {w : World} {es : Nat → Surroundings}
    (steady : ∀ n v, upload F w es n = some v → Steady F v (es n)) : ∃ n, upload F w es n = none := by
  by_contra endless
  have goes (n : Nat) : ∃ v, upload F w es n = some v := by
    cases found : upload F w es n with
    | none => exact absurd ⟨n,found⟩ endless
    | some v => exact ⟨v,rfl⟩
  have next (n : Nat) {v : World} (found : upload F w es n = some v) : ∃ v', upload F w es (n + 1) = some v' ∧
      uploadOneChunk F v (es n) = some v' := by
    obtain ⟨v',found'⟩ := goes (n + 1)
    refine ⟨v',found',?_⟩
    rw [upload,found,Option.bind_some] at found'
    exact found'
  obtain ⟨v,found,again⟩ := next 0 rfl
  obtain ⟨c,-,valid,load⟩ := chunk_reached (steady 0 w rfl) again
  -- From the first chunk on, each one leaves fewer bytes behind the cursor.
  have fewer : ∀ n, ∃ v' c', upload F w es (n + 1) = some v' ∧ Valid v'.dir c' ∧
      loadLogUploadCursor v'.dir = (c'.1,(c'.2 : Int)) ∧ ahead v'.dir c' + n ≤ ahead v.dir c := by
    intro n
    induction n with
    | zero => exact ⟨v,c,found,valid,load,Nat.le_refl _⟩
    | succ n ih =>
      obtain ⟨u,b,found',valid',load',le⟩ := ih
      obtain ⟨u',found'',again'⟩ := next (n + 1) found'
      obtain ⟨b',valid'',load'',less⟩ := chunk_decreases (steady (n + 1) u found') again' valid' load'
      exact ⟨u',b',found'',valid'',load'',by omega⟩
  obtain ⟨v',c',-,-,-,le⟩ := fewer (ahead v.dir c + 1)
  omega

def sample : World where
  dir := AList.singleton noon.name (.file [1])
  current := noon
  short := by
    intro name member
    obtain rfl : name = noon.name := by simpa [AList.mem_keys] using member
    exact stamp_short noon

def surroundings (fault : Fault) : Surroundings := ⟨fun _ => fault,false,fun _ => false,true,[1],0,fun _ => none⟩

def plain : Printer := ⟨fun _ => [],fun _ => Nat.zero_le _⟩

theorem upload_ends_sample : ∃ n, upload plain sample (fun _ => surroundings .none) n = none := by
  have ended : ∀ n, upload plain sample (fun _ => surroundings .none) (n + 1) = none := by
    intro n
    induction n with
    | zero =>
      refine Option.isNone_iff_eq_none.mp ?_
      decide
    | succ n ih => rw [upload,ih,Option.bind_none]
  refine upload_ends plain ?_
  intro n v found
  cases n with
  | zero =>
    obtain rfl : sample = v := Option.some.inj found
    refine ⟨rfl,?_,?_⟩
    · intro _ f _
      refine ⟨rfl,fun _ => ?_⟩
      decide
    · intro left
      revert left
      decide
  | succ n =>
    rw [ended n] at found
    cases found

structure Alone (w : World) : Prop where
  current : w.current = noon
  one : ∃ b bytes, w.dir.entries = [⟨noon.name,.file (b :: bytes)⟩]

theorem Alone.log (alone : Alone w) (line : List UInt8) : Alone (w.log line none) := by
  obtain ⟨b,bytes,entries⟩ := alone.one
  have found : w.dir.lookup w.current.name = some (.file (b :: bytes)) := by
    rw [alone.current]
    exact AList.mem_lookup_iff.mpr (by rw [entries]; exact mem_cons_self)
  refine ⟨?_,b,bytes ++ line,?_⟩
  · simp only [World.log,found]
    exact alone.current
  · grind [World.log,World.put,AList.entries_insert,alone.current,kerase_cons_eq]

theorem alone_files {b : UInt8}
    (entries : w.dir.entries = [⟨noon.name,.file (b :: bytes)⟩]) : logFiles w.dir = [noon.name] := by
  grind [isLogFile,stamp_isLogName,noon,logFiles]

theorem alone_cursor {b : UInt8}
    (entries : w.dir.entries = [⟨noon.name,.file (b :: bytes)⟩]) : loadLogUploadCursor w.dir = ([],0) := by
  have none_ : w.dir.lookup logUploadCursorFile = none := by
    refine AList.lookup_eq_none.mpr ?_
    intro member
    rw [AList.mem_keys,AList.keys,entries] at member
    grind [logName_ne_cursor,stamp_isLogName]
  rw [loadLogUploadCursor,none_]

theorem alone_again (F : Printer) (alone : Alone w) :
    ∃ w', uploadOneChunk F w (surroundings .openFails) = some w' ∧ Alone w' := by
  obtain ⟨b,bytes,entries⟩ := alone.one
  have files := alone_files entries
  have cursor : w.cursor (surroundings .openFails) = ([],0) := alone_cursor entries
  have begun : Alone (w.begun F (surroundings .openFails) noon.name []) := alone.log _
  obtain ⟨b',bytes',entries'⟩ := begun.one
  have found : (w.begun F (surroundings .openFails) noon.name []).dir.lookup noon.name = some (.file (b' :: bytes')) :=
    AList.mem_lookup_iff.mpr (by rw [entries']; exact mem_cons_self)
  have other : tailFrom [noon.name] [] = none := by decide
  have read : w.read F (surroundings .openFails) noon.name [] = ⟨[],[],0⟩ := by
    grind [surroundings,World.read,toRead,readLoop,readFile]
  have backlog : 0 < w.backlog F (surroundings .openFails) noon.name [] := by
    grind [World.backlog,rest,surroundings,backlogBytes]
  refine ⟨(readUnuploadedLog F w (surroundings .openFails)).sent F (surroundings .openFails),?_,?_⟩
  · simp only [uploadOneChunk,readUnuploadedLog,files]
    rw [if_neg (by simp [surroundings]),if_pos backlog]
  · simp only [readUnuploadedLog,files,read]
    exact (begun.log _).log _

/-- For no way to print the lines does every upload end. -/
theorem upload_endless : ¬ ∃ F : Printer, ∀ (w : World) (es : Nat → Surroundings), ∃ n, upload F w es n = none := by
  rintro ⟨F,all⟩
  obtain ⟨n,ended⟩ := all sample (fun _ => surroundings .openFails)
  have goes : ∀ n, ∃ w, upload F sample (fun _ => surroundings .openFails) n = some w ∧ Alone w := by
    intro n
    induction n with
    | zero => exact ⟨sample,rfl,rfl,1,[],rfl⟩
    | succ n ih =>
      obtain ⟨w,found,alone⟩ := ih
      obtain ⟨w',again,alone'⟩ := alone_again F alone
      exact ⟨w',by rw [upload,found,Option.bind_some,again],alone'⟩
  obtain ⟨w,found,-⟩ := goes n
  rw [ended] at found
  cases found

end TunnelCat.LogUploadLoop
