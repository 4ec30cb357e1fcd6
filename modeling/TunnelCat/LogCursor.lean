import TunnelCat.LogFiles
import TunnelCat.Runs

/-!
Runs of the log uploader of a client (`snc/core/log_upload.go`) while the log goes on: lines, new files and
removed ones, at any moment between the steps of the loop.
-/
namespace TunnelCat.LogCursor
open Runs LogFiles List Table
open ByteStrings (GoString ascii)

abbrev Mark := GoString × Nat × UInt8

def marks (p p' : Progress) : List Mark :=
  ((p'.buf.drop p.buf.length).zipIdx (p'.newOffset.toNat - (p'.buf.drop p.buf.length).length)).map
    (fun x => (p'.newFile,x.2,x.1))

inductive Phase
  | idle
  | reading (todo : List (GoString × Int)) (p : Progress) (taken : List Mark)
  | posted (p : Progress) (taken : List Mark)

structure Client where
  dir : Dir
  /-- The file that the log is written to. -/
  newest : GoString
  phase : Phase
  /-- The bytes of the requests that have succeeded. -/
  delivered : List Mark

def start : Client := ⟨∅,[],.idle,[]⟩

inductive Input
  /-- A line of the log. -/
  | write (bytes : List UInt8)
  /-- A new file for the log. -/
  | openNew (t : Stamp)
  /-- The oldest file is removed. -/
  | prune
  /-- The files are listed and the cursor is read, or cannot be read. -/
  | list (unread : Bool)
  /-- A turn of the loop. -/
  | read (fault : Fault)
  /-- The chunk is sent, with the stats that the ring holds. -/
  | post (stats : List UInt8)
  /-- The answer, and if the cursor file can be written. -/
  | answer (ok written : Bool)
  /-- The process ends and starts again. -/
  | restart

variable (s : Client) (d : Dir)

def beginReading (unread : Bool) : Phase :=
  match logFiles d with
  | [] => .reading [] ⟨[],[],0⟩ []
  | f :: rest =>
    .reading (toRead (f :: rest) (if unread then ([],0) else loadLogUploadCursor d))
      ⟨[],(if unread then ([],0) else loadLogUploadCursor d).1,(if unread then ([],0) else loadLogUploadCursor d).2⟩ []

def readOn (name : GoString) (offset : Int) (todo : List (GoString × Int)) (p : Progress) (taken : List Mark)
    (fault : Fault) : Phase :=
  .reading todo (readFile d p name offset fault) (taken ++ marks p (readFile d p name offset fault))

def step : Input → Client × Unit
  | .write bytes =>
    match s.dir.lookup s.newest with
    | some (.file old) => ({ s with dir := s.dir.insert s.newest (.file (old ++ bytes)) },())
    | _ => (s,())
  | .openNew t =>
    -- A clock that goes on gives a name after all others.
    if s.newest < t.name then ({ s with dir := s.dir.insert t.name (.file []), newest := t.name },()) else (s,())
  | .prune =>
    match logFiles s.dir with
    | [] => (s,())
    | f :: _ => ({ s with dir := s.dir.erase f },())
  | .list unread =>
    match s.phase with
    | .idle => ({ s with phase := beginReading s.dir unread },())
    | _ => (s,())
  | .read fault =>
    match s.phase with
    | .reading ((name, offset) :: todo) p taken =>
      if p.buf.length < maxRawLogPerUpload then
        ({ s with phase := readOn s.dir name offset todo p taken fault },())
      else (s,())
    | _ => (s,())
  | .post stats =>
    match s.phase with
    | .reading todo p taken =>
      if todo = [] ∨ maxRawLogPerUpload ≤ p.buf.length then
        ({ s with phase := if p.buf = [] ∧ stats = [] then .idle else .posted p taken },())
      else (s,())
    | _ => (s,())
  | .answer ok written =>
    match s.phase with
    | .posted p taken =>
      if ok then
        ({ s with
            dir := saveLogUploadCursor s.dir p.newFile p.newOffset written
            phase := .idle
            delivered := s.delivered ++ taken },())
      else ({ s with phase := .idle },())
    | _ => (s,())
  | .restart => ({ s with phase := .idle },())

def Log (name : GoString) (bytes : List UInt8) : Prop :=
  isLogName name = true ∧ d.lookup name = some (.file bytes)

def Before (name : GoString) (o : Nat) (cursor : GoString × Int) : Prop :=
  name < cursor.1 ∨ name = cursor.1 ∧ (o : Int) < cursor.2

/-- Every byte on disk before the cursor that is saved was delivered. -/
def Complete : Prop :=
  ∀ name bytes o b, Log s.dir name bytes → bytes[o]? = some b → Before name o (loadLogUploadCursor s.dir) →
    (name,o,b) ∈ s.delivered

/-- A file that is there when its turn comes, and is not the last, is read without a fault. -/
def Readable : Input → Prop
  | .read fault =>
    match s.phase with
    | .reading ((name, _) :: _ :: _) _ _ => fault = .none ∨ ∀ bytes, s.dir.lookup name ≠ some (.file bytes)
    | _ => True
  | _ => True

structure Covers (known : List Mark) (d : Dir) (c : GoString × Int) : Prop where
  before : ∀ name bytes o b, Log d name bytes → bytes[o]? = some b → Before name o c → (name,o,b) ∈ known
  inside : ∀ bytes, Log d c.1 bytes → c.2 ≤ bytes.length

def Later (c : GoString) (d d' : Dir) : Prop :=
  ∀ name bytes', Log d' name bytes' →
    c < name ∨ ∃ bytes, Log d name bytes ∧ bytes <+: bytes' ∧ (name < c → bytes' = bytes)

section
variable {known known' : List Mark} {d d' : Dir} {c : GoString × Int}

theorem log_unique {name : GoString} {bytes bytes' : List UInt8} (first : Log d name bytes) (second : Log d name bytes') :
    bytes = bytes' := file_unique first.2 second.2

theorem Covers.more (covers : Covers known d c) (sub : known ⊆ known') : Covers known' d c :=
  ⟨fun name bytes o b log there before => sub (covers.before name bytes o b log there before),covers.inside⟩

theorem Covers.later (covers : Covers known d c) (later : Later c.1 d d') : Covers known d' c := by
  constructor
  · intro name bytes' o b log there before
    rcases later name bytes' log with after | ⟨bytes,old,grown,same⟩
    · rcases before with first | ⟨own,-⟩
      · exact absurd (Std.lt_trans first after) Std.lt_irrefl
      · exact absurd (own ▸ after) Std.lt_irrefl
    · rcases before with first | ⟨own,less⟩
      · rw [same first] at there
        exact covers.before name bytes o b old there (.inl first)
      · have long := covers.inside bytes (own ▸ old)
        have kept : bytes[o]? = some b := by
          obtain ⟨more,rfl⟩ := grown
          rwa [List.getElem?_append_left (by omega)] at there
        exact covers.before name bytes o b old kept (.inr ⟨own,less⟩)
  · intro bytes' log
    rcases later c.1 bytes' log with after | ⟨bytes,old,grown,-⟩
    · exact absurd after Std.lt_irrefl
    · have long := covers.inside bytes old
      have longer := grown.length_le
      omega

theorem covers_none : Covers known d ([],0) := by
  refine ⟨?_,fun bytes _ => Int.natCast_nonneg _⟩
  rintro name bytes o b - - (before | ⟨-,before⟩)
  · exact absurd before (not_lt_nil name)
  · omega

end

structure Env (s s' : Client) : Prop where
  later : ∀ c, c ≤ s.newest → Later c s.dir s'.dir
  newest : s.newest ≤ s'.newest
  fresh : s'.newest ≠ logUploadCursorFile
  new : ∀ name bytes, Log s'.dir name bytes → (∃ old, Log s.dir name old) ∨ s.newest < name ∧ name ≤ s'.newest ∧ ¬ 10 ∈ name
  cursor : loadLogUploadCursor s'.dir = loadLogUploadCursor s.dir
  phase : s'.phase = s.phase
  delivered : s'.delivered = s.delivered

variable {s}

theorem env_refl (fresh : s.newest ≠ logUploadCursorFile) : Env s s := by
  refine ⟨?_,Std.le_refl _,fresh,fun name bytes log => .inl ⟨bytes,log⟩,rfl,rfl,rfl⟩
  intro c _ name bytes log
  exact .inr ⟨bytes,log,prefix_refl _,fun _ => rfl⟩

theorem env_write (s : Client) (fresh : s.newest ≠ logUploadCursorFile) (bytes : List UInt8) :
    Env s (step s (.write bytes)).1 := by
  rw [step]
  split
  · rename_i old found
    refine ⟨?_,Std.le_refl _,fresh,?_,load_insert _ fresh,rfl,rfl⟩
    · intro c le name bytes' log
      rcases of_lookup_insert log.2 with ⟨rfl,grown⟩ | ⟨-,same⟩
      · injection grown with grown
        refine .inr ⟨old,⟨log.1,found⟩,by rw [grown]; exact prefix_append _ _,?_⟩
        intro less
        exact absurd (Std.lt_of_le_of_lt le less) Std.lt_irrefl
      · exact .inr ⟨bytes',⟨log.1,same⟩,prefix_refl _,fun _ => rfl⟩
    · intro name bytes' log
      rcases of_lookup_insert log.2 with ⟨rfl,-⟩ | ⟨-,same⟩
      · exact .inl ⟨old,log.1,found⟩
      · exact .inl ⟨bytes',log.1,same⟩
  · exact env_refl fresh

theorem env_openNew (s : Client) (fresh : s.newest ≠ logUploadCursorFile) (t : Stamp) :
    Env s (step s (.openNew t)).1 := by
  rw [step]
  split
  · rename_i after
    have other := logName_ne_cursor (stamp_isLogName t)
    refine ⟨?_,Std.le_of_lt after,other,?_,load_insert _ other,rfl,rfl⟩
    · intro c le name bytes' log
      rcases of_lookup_insert log.2 with ⟨rfl,-⟩ | ⟨-,same⟩
      · exact .inl (Std.lt_of_le_of_lt le after)
      · exact .inr ⟨bytes',⟨log.1,same⟩,prefix_refl _,fun _ => rfl⟩
    · intro name bytes' log
      rcases of_lookup_insert log.2 with ⟨rfl,-⟩ | ⟨-,same⟩
      · exact .inr ⟨after,Std.le_refl _,stamp_clean t⟩
      · exact .inl ⟨bytes',log.1,same⟩
  · exact env_refl fresh

theorem env_prune (s : Client) (fresh : s.newest ≠ logUploadCursorFile) : Env s (step s .prune).1 := by
  rw [step]
  split
  · exact env_refl fresh
  · rename_i f rest files
    have member : f ∈ logFiles s.dir := by rw [files]; exact mem_cons_self
    have other := logName_ne_cursor (mem_logFiles.mp member).1
    have kept {name : GoString} {bytes : List UInt8} (log : Log (s.dir.erase f) name bytes) : Log s.dir name bytes :=
      ⟨log.1,(of_lookup_erase log.2).2⟩
    refine ⟨?_,Std.le_refl _,fresh,fun name bytes log => .inl ⟨bytes,kept log⟩,?_,rfl,rfl⟩
    · intro c _ name bytes log
      exact .inr ⟨bytes,kept log,prefix_refl _,fun _ => rfl⟩
    · simp only [loadLogUploadCursor,AList.lookup_erase_ne (Ne.symm other)]

structure Good (newest : GoString) (c : GoString × Int) : Prop where
  name : c.1 = [] ∨ isLogName c.1 = true ∧ ¬ (10 : UInt8) ∈ c.1
  low : 0 ≤ c.2
  upto : c.1 ≤ newest

theorem good_none (newest : GoString) : Good newest ([],0) := ⟨.inl rfl,Int.le_refl _,nil_le newest⟩

/-- The loop in `readUnuploadedLog`: before the next file to read everything is covered, as
    long as there is room, and so it is before the place that was reached. -/
structure Loop (known : List Mark) (d : Dir) (newest : GoString) (todo : List (GoString × Int)) (p : Progress) : Prop where
  sorted : (todo.map Prod.fst).Pairwise (· < ·)
  good : ∀ x ∈ todo, Good newest x ∧ isLogName x.1 = true
  zero : ∀ x ∈ todo.tail, x.2 = 0
  listed : ∀ name bytes t, Log d name bytes → t ∈ todo.map Prod.fst → name < t →
    name ∈ todo.map Prod.fst ∨ ∀ x ∈ todo.head?, name < x.1
  next : p.buf.length < maxRawLogPerUpload → ∀ x ∈ todo.head?, Covers known d x
  reached : Good newest (p.newFile,p.newOffset)
  done : Covers known d (p.newFile,p.newOffset)

def Underway (s : Client) : Prop :=
  match s.phase with
  | .idle => True
  | .reading todo p taken => Loop (s.delivered ++ taken) s.dir s.newest todo p
  | .posted p taken => Good s.newest (p.newFile,p.newOffset) ∧ Covers (s.delivered ++ taken) s.dir (p.newFile,p.newOffset)

structure Sound (s : Client) : Prop where
  fresh : s.newest ≠ logUploadCursorFile
  names : ∀ name bytes, Log s.dir name bytes → name ≤ s.newest ∧ ¬ 10 ∈ name
  good : Good s.newest (loadLogUploadCursor s.dir)
  covers : Covers s.delivered s.dir (loadLogUploadCursor s.dir)
  underway : Underway s

theorem sound_start : Sound start := by
  refine ⟨by decide,?_,good_none _,covers_none,trivial⟩
  intro name bytes log
  cases log.2

theorem Good.later {newest newest' : GoString} {c : GoString × Int} (good : Good newest c) (le : newest ≤ newest') :
    Good newest' c := ⟨good.name,good.low,Std.le_trans good.upto le⟩

theorem Loop.env {s' : Client} (env : Env s s') {known : List Mark} {todo : List (GoString × Int)} {p : Progress}
    (loop : Loop known s.dir s.newest todo p) : Loop known s'.dir s'.newest todo p := by
  refine ⟨loop.sorted,?_,loop.zero,?_,?_,loop.reached.later env.newest,loop.done.later (env.later _ loop.reached.upto)⟩
  · intro x member
    exact ⟨(loop.good x member).1.later env.newest,(loop.good x member).2⟩
  · intro name bytes t log member less
    rcases env.new name bytes log with ⟨old,there⟩ | ⟨after,-⟩
    · exact loop.listed name old t there member less
    · obtain ⟨x,inside,rfl⟩ := mem_map.mp member
      exact absurd (Std.lt_trans (Std.lt_of_le_of_lt (loop.good x inside).1.upto after) less) Std.lt_irrefl
  · intro room x head
    have inside : x ∈ todo := mem_of_mem_head? head
    exact (loop.next room x head).later (env.later _ (loop.good x inside).1.upto)

theorem Sound.env {s' : Client} (sound : Sound s) (env : Env s s') : Sound s' := by
  refine ⟨env.fresh,?_,?_,?_,?_⟩
  · intro name bytes log
    rcases env.new name bytes log with ⟨old,there⟩ | ⟨-,upto,clean⟩
    · exact ⟨Std.le_trans (sound.names name old there).1 env.newest,(sound.names name old there).2⟩
    · exact ⟨upto,clean⟩
  · rw [env.cursor]
    exact sound.good.later env.newest
  · rw [env.cursor,env.delivered]
    exact sound.covers.later (env.later _ sound.good.upto)
  · have underway := sound.underway
    unfold Underway at underway ⊢
    rw [env.phase,env.delivered]
    split at underway
    · trivial
    · exact underway.env env
    · exact ⟨underway.1.later env.newest,underway.2.later (env.later _ underway.1.upto)⟩

section
variable {known : List Mark} {d : Dir} {newest : GoString} {c : GoString × Int}

theorem loop_start (names : ∀ name bytes, Log d name bytes → name ≤ newest ∧ ¬ 10 ∈ name) (good : Good newest c)
    (covers : Covers known d c) : Loop known d newest (toRead (logFiles d) c) ⟨[],c.1,c.2⟩ := by
  have sorted := logFiles_sorted d
  have log {f : GoString} (member : f ∈ logFiles d) : ∃ bytes, Log d f bytes := by
    obtain ⟨name,bytes,found⟩ := mem_logFiles.mp member
    exact ⟨bytes,name,found⟩
  have all {f : GoString} {bytes : List UInt8} (log : Log d f bytes) : f ∈ logFiles d :=
    mem_logFiles.mpr ⟨log.1,bytes,log.2⟩
  have whole {f : GoString} (member : f ∈ logFiles d) : Good newest (f,0) ∧ isLogName f = true := by
    obtain ⟨bytes,there⟩ := log member
    obtain ⟨upto,clean⟩ := names f bytes there
    exact ⟨⟨.inr ⟨there.1,clean⟩,Int.le_refl _,upto⟩,there.1⟩
  have zero := toRead_tail (logFiles d) c
  rcases toRead_cases (logFiles d) c with ⟨before,rest,files,todo⟩ | ⟨-,todo⟩
  · have firsts : (toRead (logFiles d) c).map Prod.fst = c.1 :: rest := by
      rw [todo,map_cons,map_fst_whole]
    rw [files] at sorted
    obtain ⟨-,sorted',between⟩ := pairwise_append.mp sorted
    have inside {f : GoString} (member : f ∈ c.1 :: rest) : f ∈ logFiles d := by
      rw [files]
      exact mem_append_right _ member
    refine ⟨by rw [firsts]; exact sorted',?_,zero,?_,?_,good,covers⟩
    · intro x member
      rw [todo] at member
      rcases mem_cons.mp member with rfl | later
      · exact ⟨good,(whole (inside mem_cons_self)).2⟩
      · obtain ⟨f,there,rfl⟩ := mem_map.mp later
        exact whole (inside (mem_cons_of_mem _ there))
    · grind
    · intro _ x head
      rw [todo] at head
      obtain rfl := Option.some.inj head
      exact covers
  · have firsts : (toRead (logFiles d) c).map Prod.fst = logFiles d := by
      rw [todo,map_fst_whole]
    refine ⟨by rw [firsts]; exact sorted,?_,zero,?_,?_,good,covers⟩
    · intro x member
      rw [todo] at member
      obtain ⟨f,there,rfl⟩ := mem_map.mp member
      exact whole there
    · grind
    · -- Nothing comes before the oldest file.
      intro _ x head
      rw [todo,List.head?_map] at head
      obtain ⟨f,first,rfl⟩ := Option.mem_map.mp head
      obtain ⟨rest,files⟩ := List.head?_eq_some_iff.mp first
      rw [files] at sorted
      refine ⟨?_,fun bytes _ => Int.natCast_nonneg _⟩
      rintro name bytes o b there - (less | ⟨-,less⟩)
      · have member := all there
        rw [files] at member
        rcases mem_cons.mp member with rfl | later
        · exact absurd less Std.lt_irrefl
        · exact absurd (Std.lt_trans less ((pairwise_cons.mp sorted).1 name later)) Std.lt_irrefl
      · omega

theorem marks_add (p : Progress) (name : GoString) (place : Nat) (copied : List UInt8) :
    marks p (p.add name place copied) = (copied.zipIdx place).map (fun x => (name,x.2,x.1)) := by
  have same : (p.add name place copied).buf.drop p.buf.length = copied := drop_left' rfl
  rw [marks,same]
  have start_ : (p.add name place copied).newOffset.toNat - copied.length = place := by
    simp only [Progress.add]
    omega
  rw [start_]
  rfl

theorem marks_none (p : Progress) : marks p p = [] := by
  rw [marks,drop_length]
  rfl

variable {name : GoString} {p : Progress} {bytes : List UInt8} {offset : Int} {todo : List (GoString × Int)}

theorem mem_marks_add {place n o : Nat} {b : UInt8}
    (there : bytes[o]? = some b) (from_ : place ≤ o) (upto : o < place + n) :
    (name,o,b) ∈ marks p (p.add name place ((bytes.drop place).take n)) := by
  rw [marks_add]
  refine mem_map.mpr ⟨(b,o),?_,rfl⟩
  grind [List.getElem?_take_of_lt]

theorem covers_piece {room place n : Nat}
    (covers : Covers known d (name,offset)) (log : Log d name bytes) (piece : Piece bytes offset room place n) :
    Covers (known ++ marks p (p.add name place ((bytes.drop place).take n))) d (name,((place + n : Nat) : Int)) := by
  constructor
  · rintro other bytes' o b there at_ (less | ⟨rfl,less⟩)
    · exact mem_append_left _ (covers.before other bytes' o b there at_ (.inl less))
    · obtain rfl := log_unique there log
      replace less := Int.ofNat_lt.mp less
      rcases Nat.lt_or_ge o place with early | late
      · refine mem_append_left _ (covers.before _ _ o b log at_ (.inr ⟨rfl,?_⟩))
        grind [piece.start,clamp]
      · exact mem_append_right _ (mem_marks_add at_ late less)
  grind [log_unique,piece.inside]

theorem Loop.advance {known' : List Mark} {p' : Progress}
    (loop : Loop known d newest ((name,offset) :: todo) p) (here : Covers known d (name,offset)) (sub : known ⊆ known')
    (own : p'.buf.length < maxRawLogPerUpload → todo ≠ [] →
      ∀ bytes o b, Log d name bytes → bytes[o]? = some b → (name,o,b) ∈ known')
    (reached : Good newest (p'.newFile,p'.newOffset)) (done : Covers known' d (p'.newFile,p'.newOffset)) :
    Loop known' d newest todo p' := by
  obtain ⟨first,sorted⟩ := pairwise_cons.mp loop.sorted
  -- A file before a later one is this one, or comes before it, or is later itself.
  have split {other t : GoString} {bytes : List UInt8} (log : Log d other bytes) (member : t ∈ todo.map Prod.fst)
      (less : other < t) : other = name ∨ other < name ∨ other ∈ todo.map Prod.fst := by
    rcases loop.listed other bytes t log (mem_cons_of_mem _ member) less with inside | before
    · grind
    · exact .inr (.inl (before (name,offset) rfl))
  have after {x : GoString × Int} (head : x ∈ todo.head?) : x.1 ∈ todo.map Prod.fst :=
    mem_map_of_mem (mem_of_mem_head? head)
  refine ⟨sorted,fun x member => loop.good x (mem_cons_of_mem _ member),
    fun x member => loop.zero x (mem_of_mem_tail member),?_,?_,reached,done⟩
  · grind
  · intro room x head
    have zero : x.2 = 0 := loop.zero x (mem_of_mem_head? head)
    have filled : todo ≠ [] := by
      rintro rfl
      cases head
    refine ⟨?_,fun bytes _ => by rw [zero]; exact Int.natCast_nonneg _⟩
    rintro other bytes o b log there (less | ⟨-,less⟩)
    · rcases split log (after head) less with rfl | before | later
      · exact own room filled bytes o b log there
      · exact sub (here.before other bytes o b log there (.inl before))
      · -- The files come in order, so none of them is before the first.
        obtain ⟨rest,rfl⟩ := List.head?_eq_some_iff.mp head
        rcases mem_cons.mp later with rfl | later
        · exact absurd less Std.lt_irrefl
        · exact absurd (Std.lt_trans less ((pairwise_cons.mp sorted).1 other later)) Std.lt_irrefl
    · omega

theorem loop_read {fault : Fault}
    (loop : Loop known d newest ((name,offset) :: todo) p) (room : p.buf.length < maxRawLogPerUpload)
    (readable : todo = [] ∨ fault = .none ∨ ∀ bytes, d.lookup name ≠ some (.file bytes)) :
    Loop (known ++ marks p (readFile d p name offset fault)) d newest todo (readFile d p name offset fault) := by
  have here := loop.next room (name,offset) rfl
  obtain ⟨good,logName⟩ := loop.good (name,offset) mem_cons_self
  have sub (more : List Mark) : known ⊆ known ++ more := subset_append_left _ _
  rcases readFile_cases d p name offset fault with ⟨same,gone⟩ | ⟨bytes,place,n,found,piece,read,whole⟩
  · rw [same,marks_none,append_nil]
    refine loop.advance here (fun _ member => member) ?_ loop.reached loop.done
    intro _ more bytes o b log there
    rcases readable with last | fine | gone'
    · exact absurd last more
    · exact absurd log.2 (gone fine good.low bytes)
    · exact absurd log.2 (gone' bytes)
  · have upto := covers_piece (p := p) here ⟨logName,found⟩ piece
    rw [read]
    have offset_ : (p.add name place ((bytes.drop place).take n)).newOffset = ((place + n : Nat) : Int) := by
      grind [piece.inside,Progress.add]
    have reached : Good newest (name,((place + n : Nat) : Int)) := ⟨good.name,Int.natCast_nonneg _,good.upto⟩
    refine loop.advance here (sub _) ?_ ?_ ?_
    · -- With room left, the piece has gone to the end of the file.
      intro less more bytes' o b log there
      obtain rfl := log_unique log ⟨logName,found⟩
      have inside := (List.getElem?_eq_some_iff.mp there).1
      have fine : fault = .none := by
        grind
      have size := whole fine
      simp only [Progress.add,length_append,length_take,length_drop] at less
      refine upto.before name _ o b log there (.inr ⟨rfl,?_⟩)
      omega
    · rw [offset_]
      exact reached
    · rw [offset_]
      exact upto

end

section
variable {s : Client} (sound : Sound s)
include sound

theorem Sound.goOn {phase : Phase} (underway : Underway { s with phase := phase }) : Sound { s with phase := phase } :=
  ⟨sound.fresh,sound.names,sound.good,sound.covers,underway⟩

theorem Sound.list (unread : Bool) : Sound { s with phase := beginReading s.dir unread } := by
  refine sound.goOn ?_
  unfold Underway beginReading
  split
  · rename_i none_
    split at none_ <;> cases none_
  · rename_i todo p taken begun
    split at begun
    · obtain ⟨rfl,rfl,rfl⟩ : todo = [] ∧ p = ⟨[],[],0⟩ ∧ taken = [] := by cases begun; exact ⟨rfl,rfl,rfl⟩
      refine ⟨List.Pairwise.nil,?_,?_,?_,?_,good_none _,covers_none⟩
      · intro x none_; cases none_
      · intro x none_; cases none_
      · intro name bytes t _ none_; cases none_
      · intro _ x none_; cases none_
    · rename_i f rest files
      have good : Good s.newest (if unread then ([],0) else loadLogUploadCursor s.dir) := by
        split
        · exact good_none _
        · exact sound.good
      have covers : Covers s.delivered s.dir (if unread then ([],0) else loadLogUploadCursor s.dir) := by
        split
        · exact covers_none
        · exact sound.covers
      have loop := loop_start sound.names good covers
      rw [files] at loop
      cases begun
      rw [append_nil]
      exact loop
  · rename_i none_
    split at none_ <;> cases none_

theorem Sound.delivered {p : Progress} {taken : List Mark} (phase : s.phase = .posted p taken) (written : Bool) :
    Sound { s with
      dir := saveLogUploadCursor s.dir p.newFile p.newOffset written
      phase := .idle
      delivered := s.delivered ++ taken } := by
  have underway := sound.underway
  rw [Underway,phase] at underway
  obtain ⟨good,covers⟩ := underway
  have kept {name : GoString} {bytes : List UInt8}
      (log : Log (saveLogUploadCursor s.dir p.newFile p.newOffset written) name bytes) : Log s.dir name bytes := by
    refine ⟨log.1,?_⟩
    rw [← lookup_save s.dir p.newFile p.newOffset written (logName_ne_cursor log.1)]
    exact log.2
  have later (c : GoString) : Later c s.dir (saveLogUploadCursor s.dir p.newFile p.newOffset written) :=
    fun name bytes log => .inr ⟨bytes,kept log,prefix_refl _,fun _ => rfl⟩
  have cursor : Good s.newest (loadLogUploadCursor (saveLogUploadCursor s.dir p.newFile p.newOffset written)) ∧
      Covers (s.delivered ++ taken) (saveLogUploadCursor s.dir p.newFile p.newOffset written)
        (loadLogUploadCursor (saveLogUploadCursor s.dir p.newFile p.newOffset written)) := by
    have same : saveLogUploadCursor s.dir p.newFile p.newOffset written = s.dir →
        Good s.newest (loadLogUploadCursor (saveLogUploadCursor s.dir p.newFile p.newOffset written)) ∧
        Covers (s.delivered ++ taken) (saveLogUploadCursor s.dir p.newFile p.newOffset written)
          (loadLogUploadCursor (saveLogUploadCursor s.dir p.newFile p.newOffset written)) := by
      grind [sound.good,sound.covers.more]
    rcases good.name with none_ | ⟨log,clean⟩
    · exact same (if_pos none_)
    grind [Int.eq_ofNat_of_zero_le,good.low,load_save,covers.later,good_none,covers_none]
  exact ⟨sound.fresh,fun name bytes log => sound.names name bytes (kept log),cursor.1,cursor.2,trivial⟩

theorem sound_step (i : Input) (readable : Readable s i) : Sound (step s i).1 := by
  have underway := sound.underway
  cases i with
  | write bytes => exact sound.env (env_write s sound.fresh bytes)
  | openNew t => exact sound.env (env_openNew s sound.fresh t)
  | prune => exact sound.env (env_prune s sound.fresh)
  | list unread =>
    rw [step]
    split
    · exact sound.list unread
    · exact sound
  | read fault =>
    rw [step]
    split
    · rename_i name offset todo p taken phase
      split
      · rename_i room
        refine sound.goOn ?_
        rw [Underway,phase] at underway
        have fine : todo = [] ∨ fault = .none ∨ ∀ bytes, s.dir.lookup name ≠ some (.file bytes) := by
          rw [Readable,phase] at readable
          cases todo with
          | nil => exact .inl rfl
          | cons x rest => exact .inr readable
        have loop := loop_read underway room fine
        rw [append_assoc] at loop
        exact loop
      · exact sound
    · exact sound
  | post stats =>
    rw [step]
    split
    · rename_i todo p taken phase
      rw [Underway,phase] at underway
      grind [sound.goOn,Underway,underway.reached,underway.done]
    · exact sound
  | answer ok written =>
    rw [step]
    split
    · rename_i p taken phase
      split
      · exact sound.delivered phase written
      · exact sound.goOn trivial
    · exact sound
  | restart => exact sound.goOn trivial

end

/-- Every byte on disk before the saved cursor was delivered, after every run in which a file
    that is there and not the last is read without a fault. -/
theorem complete_run {inputs : List Input} (readable : Along step Readable start inputs) :
    Complete (final step start inputs) := by
  have sound : Sound (final step start inputs) := by
    refine state_along ?_ readable sound_start
    intro s i cond sound
    exact sound_step sound i cond
  exact fun name bytes o b log there before => sound.covers.before name bytes o b log there before

theorem readable_fine (s : Client) : Readable s (.read .none) := by
  unfold Readable
  simp only [true_or]
  split <;> trivial

def upload (fault : Fault) : List Input :=
  [.openNew noon,.write [1],.openNew later,.write [2],.list false,.read fault,.read .none,.post [],.answer true true]

theorem complete_run_fine : Complete (final step start (upload .none)) := by
  refine complete_run (along_of_forall _ ?_ start)
  intro i member s
  simp only [upload,mem_cons,not_mem_nil,or_false] at member
  rcases member with rfl | rfl | rfl | rfl | rfl | rfl | rfl | rfl | rfl
  case inr.inr.inr.inr.inr.inl => exact readable_fine s
  case inr.inr.inr.inr.inr.inr.inl => exact readable_fine s
  all_goals trivial

/-- The first file cannot be opened, and the second is read and delivered. -/
theorem passed_over : ¬ ∀ inputs : List Input, Complete (final step start inputs) := by
  intro all
  have log : Log (final step start (upload .openFails)).dir noon.name [1] := ⟨stamp_isLogName noon,by decide⟩
  have cursor : (loadLogUploadCursor (final step start (upload .openFails)).dir).1 = later.name := by decide
  have less : noon.name < later.name := by decide
  have before : Before noon.name 0 (loadLogUploadCursor (final step start (upload .openFails)).dir) := by
    refine .inl ?_
    rw [cursor]
    exact less
  have delivered :=
    all (upload .openFails) noon.name [1] 0 1 log rfl before
  have absent : ¬ (noon.name,0,1) ∈ (final step start (upload .openFails)).delivered := by decide
  exact absent delivered

end TunnelCat.LogCursor
