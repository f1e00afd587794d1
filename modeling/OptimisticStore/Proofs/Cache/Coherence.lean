import OptimisticStore.Proofs.Cache.Hands
import OptimisticStore.Sample.Account
/-!
A cached slot is the current row, unless a removal is still outstanding.

A reader may fill a slot long after it fetched; it is let in only while no removal has come to its node
since it noted the generation, and a writer whose commit the reader missed still owes that removal. Main
statement: `slots_coherent`.
-/
namespace OptimisticStore

variable {ι K E : Type} [Key K]

namespace Mesh

/-- What a lookup found is the current row, or the key is yet to be removed from the node. -/
def Current (mesh : Mesh ι K E) (index : Nat) (key : K) (found : Option E) : Prop :=
  found = mesh.table.rows.get? key ∨ ∃ member, mesh.owes member key index

variable {mesh : Mesh ι K E} {index : Nat} {key : K} {found : Option E} {member : ι}

theorem length_pos_of_slot {slot : Slot E} (held : (mesh.node index).slots.get? key = some slot) :
    index < mesh.nodes.length := by
  by_cases within : index < mesh.nodes.length
  · exact within
  · have missing : mesh.node index = {} := by
      unfold node
      rw [List.getElem?_eq_none (by omega)]
      rfl
    rw [missing] at held
    cases held

theorem Current.of_world {written? : Option K} {table : Table K E}
    (current : mesh.Current index key found) (within : index < mesh.nodes.length)
    (kept : written? ≠ some key → table.rows.get? key = mesh.table.rows.get? key) :
    (mesh.ofWorld member written? table).Current index key found := by
  rcases current with same | ⟨other, owes⟩
  · by_cases written : written? = some key
    · exact .inr ⟨member, .inr ⟨rfl, written, within⟩⟩
    · exact .inl (same.trans (kept written).symm)
  · exact .inr ⟨other, .inl owes⟩

variable {nodes : Cluster K E} {dropped : K → Prop}

theorem Current.of_node {place : Nat} (current : mesh.Current index key found)
    (kept : ¬ (index = place ∧ dropped key)) :
    (mesh.ofNode member place dropped nodes).Current index key found := by
  rcases current with same | ⟨other, owes⟩
  · exact .inl same
  · refine .inr ⟨other, owes, ?_⟩
    rintro ⟨_, here, drops⟩
    exact kept ⟨here, drops⟩

theorem node_of_set {served : CacheNode K E} (place : Nat) :
    (mesh.ofNode member index dropped (mesh.nodes.set index served)).node place =
      if place = index ∧ index < mesh.nodes.length then served else mesh.node place := by
  unfold node
  change ((mesh.nodes.set index served)[place]?).getD {} = _
  rw [List.getElem?_set]
  by_cases here : place = index
  · subst here
    by_cases within : place < mesh.nodes.length
    · simp [within]
    · simp [within]
  · simp [here, Ne.symm here]

theorem served_by_node {call : CacheCall K E} {answer : call.Answer}
    (run : (Cluster.serveNode (index, call)).run mesh.nodes = (answer, nodes)) :
    ∃ served, (mesh.node index).serve call = (answer, served) ∧
      nodes = mesh.nodes.set index served := by
  obtain ⟨same, rfl⟩ := Prod.mk.inj run
  exact ⟨_, Prod.ext same rfl, rfl⟩

end Mesh

def Hand.Sound (mesh : Mesh ι K E) (home : Nat) : Hand K E → Prop
  | .noted generation => generation ≤ (mesh.node home).generation
  | .holding generation keys value => generation ≤ (mesh.node home).generation ∧
    ((mesh.node home).generation = generation →
      ∀ key ∈ keys, mesh.Current home key (value key))
  | .broken => False
  | _ => True

variable {family : Family K E} {clients : ι → Client K E} {n : Nat} {mesh : Mesh ι K E}
  {hands : ι → Hand K E}

/-- The nodes agree with the rows but for outstanding removals, and so does what members hold; only who
has a key to remove owes its removal. -/
structure Coherent (family : Family K E) (clients : ι → Client K E) (n : Nat) (mesh : Mesh ι K E)
    (hands : ι → Hand K E) : Prop where
  size : mesh.nodes.length = n
  keyed : mesh.table.Keyed family
  reachable : ∀ index, (mesh.node index).poisoned = false
  slots : ∀ index key slot, (mesh.node index).slots.get? key = some slot →
    mesh.Current index key slot.toOption
  sound : ∀ member, (hands member).Sound mesh (clients member).placement.home
  debts : ∀ member key index, mesh.owes member key index →
    ∃ nodes, hands member = .owing key nodes ∧ index ∈ nodes

theorem Hand.Sound.of_world {hand : Hand K E} {home : Nat} {member : ι} {written? : Option K}
    {table : Table K E} (sound : hand.Sound mesh home) (within : home < mesh.nodes.length)
    (kept : ∀ key, written? ≠ some key → table.rows.get? key = mesh.table.rows.get? key) :
    hand.Sound (mesh.ofWorld member written? table) home := by
  cases hand with
  | noted generation => exact sound
  | holding generation keys value =>
    obtain ⟨noted, current⟩ := sound
    refine ⟨noted, fun still key among => ?_⟩
    exact (current still key among).of_world within (kept key)
  | broken => exact sound
  | free => trivial
  | owing => trivial

theorem Hand.Sound.of_node {hand : Hand K E} {home index : Nat} {member : ι}
    {dropped : K → Prop} {nodes : Cluster K E} (sound : hand.Sound mesh home)
    (grown : (mesh.node home).generation ≤
      ((mesh.ofNode member index dropped nodes).node home).generation)
    (moved : ∀ key, home = index ∧ dropped key → (mesh.node home).generation <
      ((mesh.ofNode member index dropped nodes).node home).generation) :
    hand.Sound (mesh.ofNode member index dropped nodes) home := by
  cases hand with
  | noted generation => exact Nat.le_trans sound grown
  | holding generation keys value =>
    obtain ⟨noted, current⟩ := sound
    refine ⟨Nat.le_trans noted grown, fun still key among => ?_⟩
    apply (current (by omega) key among).of_node
    intro drops
    have onward := moved key drops
    omega
  | broken => exact sound
  | free => trivial
  | owing => trivial

section Worlds

variable [DecidableEq K] {placement : Placement} {hand next : Hand K E} {member : ι} {call : Call K E}
  {answer : call.Answer}

theorem Hand.Sound.of_fetch [DecidableEq E] {client : Client K E} {world last : World K E}
    (sound : hand.Sound mesh placement.home)
    (served : (World.serve family client call).run world = (answer, last))
    (kept : hand.Sound (mesh.ofWorld member (call.writtenKey? family answer) last.table)
      placement.home)
    (move : Hand.Moves family placement hand (.world call) answer next) :
    next.Sound (mesh.ofWorld member (call.writtenKey? family answer) last.table)
      placement.home := by
  have effect := World.serve_effect served
  cases move with
  | keeps => exact kept
  | fetches found =>
    have rows := Table.rows_of_not_wrote effect rfl
    refine ⟨sound, fun _ other among => .inl ?_⟩
    obtain rfl := List.mem_singleton.mp among
    change found = last.table.rows.get? other
    rw [rows]
    exact World.serve_fetch served
  | @fetchesMany _ keys found =>
    have rows := Table.rows_of_not_wrote effect rfl
    refine ⟨sound, fun _ other among => .inl ?_⟩
    change found.get? other = last.table.rows.get? other
    rw [rows, World.serve_fetchMany served]
    exact Table.get?_select among
  | commits => trivial
  | breaks => exact kept

omit [DecidableEq K] in
theorem debts_of_world {table : Table K E} (covers : placement.Covers mesh.nodes.length)
    (sound : hand.Sound mesh placement.home)
    (debts : ∀ key index, mesh.owes member key index →
      ∃ nodes, hand = .owing key nodes ∧ index ∈ nodes)
    (move : Hand.Moves family placement hand (.world call) answer next) (key : K) (index : Nat)
    (owes : (mesh.ofWorld member (call.writtenKey? family answer) table).owes member key index) :
    ∃ nodes, next = .owing key nodes ∧ index ∈ nodes := by
  rcases owes with old | ⟨_, written, within⟩
  · obtain ⟨nodes, rfl, among⟩ := debts key index old
    cases move with
    | keeps => exact ⟨nodes, rfl, among⟩
  · cases move with
    | keeps quiet => exact absurd (quiet.symm.trans written) (by simp)
    | fetches => cases written
    | fetchesMany => cases written
    | commits written' =>
      obtain rfl := Option.some.inj (written.symm.trans written')
      exact ⟨_, rfl, covers.2 index within⟩
    | breaks => exact sound.elim

end Worlds

section Nodes

variable [DecidableEq K] {placement : Placement} {hand next : Hand K E} {member : ι} {index : Nat}
  {call : CacheCall K E} {answer : call.Answer} {served : CacheNode K E}

theorem Mesh.lessened (reachable : ∀ place, (mesh.node place).poisoned = false)
    (quiet : call.fills = false) (run : (mesh.node index).serve call = (answer, served))
    {place : Nat} (within : place < mesh.nodes.length) :
    (mesh.node place).Lessened (fun key => place = index ∧ call.Drops answer key)
      ((mesh.ofNode member index (call.Drops answer) (mesh.nodes.set index served)).node place) := by
  rw [Mesh.node_of_set]
  by_cases here : place = index
  · subst here
    simpa [within] using CacheNode.serve_quiet (reachable place) quiet run
  · simpa [here] using CacheNode.lessened_of_same (reachable place) rfl rfl

omit [DecidableEq K] in
theorem Hand.Sound.of_quiet {nodes : Cluster K E} {dropped : K → Prop}
    (reachable : (mesh.node index).poisoned = false) (quiet : call.fills = false)
    (run : (mesh.node index).serve call = (answer, served))
    (grown : (mesh.node placement.home).generation ≤
      ((mesh.ofNode member index dropped nodes).node placement.home).generation)
    (kept : hand.Sound (mesh.ofNode member index dropped nodes) placement.home)
    (move : Hand.Moves family placement hand (.node index call) answer next) :
    next.Sound (mesh.ofNode member index dropped nodes) placement.home := by
  cases move with
  | keeps => exact kept
  | notes generation =>
    obtain rfl := CacheNode.serve_generation run
    exact grown
  | fills => simp [CacheCall.fills] at quiet
  | removes => trivial
  | removeFails cause =>
    have removed := CacheNode.serve_removeLocal reachable run
    cases removed
  | breaks => exact kept

omit [DecidableEq K] in
theorem debts_of_node {nodes : Cluster K E} (sound : hand.Sound mesh placement.home)
    (reachable : (mesh.node index).poisoned = false)
    (run : (mesh.node index).serve call = (answer, served))
    (debts : ∀ key place, mesh.owes member key place →
      ∃ nodes, hand = .owing key nodes ∧ place ∈ nodes)
    (move : Hand.Moves family placement hand (.node index call) answer next) (key : K) (place : Nat)
    (owes : (mesh.ofNode member index (call.Drops answer) nodes).owes member key place) :
    ∃ nodes, next = .owing key nodes ∧ place ∈ nodes := by
  obtain ⟨old, kept⟩ := owes
  obtain ⟨nodes, rfl, among⟩ := debts key place old
  cases move with
  | keeps => exact ⟨nodes, rfl, among⟩
  | @removes _ _ rest =>
    refine ⟨rest, rfl, ?_⟩
    rcases List.mem_cons.mp among with here | later
    · exact (kept ⟨rfl, here, rfl⟩).elim
    · exact later
  | removeFails cause =>
    have removed := CacheNode.serve_removeLocal reachable run
    cases removed

end Nodes

section Steps

variable [DecidableEq ι] [DecidableEq K] {member : ι} {next : Hand K E}

omit [DecidableEq ι] [DecidableEq K] in
theorem Coherent.home (covers : ∀ member, (clients member).placement.Covers n)
    (coherent : Coherent family clients n mesh hands) (other : ι) :
    (clients other).placement.home < mesh.nodes.length := by
  rw [coherent.size]
  exact (covers other).1

theorem Coherent.of_world [DecidableEq E] {call : Call K E} {answer : call.Answer}
    {world last : World K E} (lawful : family.Lawful)
    (covers : ∀ member, (clients member).placement.Covers n)
    (coherent : Coherent family clients n mesh hands) (seen : world.table = mesh.table)
    (served : (World.serve family (clients member) call).run world = (answer, last))
    (move : Hand.Moves family (clients member).placement (hands member) (.world call) answer next) :
    Coherent family clients n
      (mesh.ofWorld member (call.writtenKey? family answer) last.table)
      (Function.update hands member next) := by
  have homes := coherent.home covers
  obtain ⟨size, keyed, reachable, slots, sound, debts⟩ := coherent
  have effect := World.serve_effect served
  rw [seen] at effect
  have kept : ∀ key, call.writtenKey? family answer ≠ some key →
      last.table.rows.get? key = mesh.table.rows.get? key :=
    fun key other => Call.get?_of_effect lawful effect other
  have sounds : ∀ other, (hands other).Sound
      (mesh.ofWorld member (call.writtenKey? family answer) last.table)
      (clients other).placement.home :=
    fun other => (sound other).of_world (homes other) kept
  refine ⟨size, keyed.of_call lawful effect, reachable, ?_, ?_, ?_⟩
  · intro index key slot held
    exact (slots index key slot held).of_world (Mesh.length_pos_of_slot held) (kept key)
  · intro other
    by_cases same : other = member
    · subst same
      rw [Function.update_self]
      exact (sound other).of_fetch served (sounds other) move
    · rw [Function.update_of_ne same]
      exact sounds other
  · intro other key index owes
    by_cases same : other = member
    · subst same
      rw [Function.update_self]
      exact debts_of_world (size ▸ covers other) (sound other) (debts other) move key index owes
    · rw [Function.update_of_ne same]
      rcases owes with old | ⟨itself, _⟩
      · exact debts other key index old
      · exact absurd itself same

theorem Coherent.of_quiet {index : Nat} {call : CacheCall K E} {answer : call.Answer}
    {served : CacheNode K E} (covers : ∀ member, (clients member).placement.Covers n)
    (coherent : Coherent family clients n mesh hands) (quiet : call.fills = false)
    (run : (mesh.node index).serve call = (answer, served))
    (move : Hand.Moves family (clients member).placement (hands member) (.node index call) answer
      next) :
    Coherent family clients n
      (mesh.ofNode member index (call.Drops answer) (mesh.nodes.set index served))
      (Function.update hands member next) := by
  have homes := coherent.home covers
  obtain ⟨size, keyed, reachable, slots, sound, debts⟩ := coherent
  have lessened : ∀ {place}, place < mesh.nodes.length →
      (mesh.node place).Lessened (fun key => place = index ∧ call.Drops answer key)
        ((mesh.ofNode member index (call.Drops answer) (mesh.nodes.set index served)).node place) :=
    fun within => Mesh.lessened reachable quiet run within
  have sounds : ∀ other, (hands other).Sound
      (mesh.ofNode member index (call.Drops answer) (mesh.nodes.set index served))
      (clients other).placement.home := by
    intro other
    have here := lessened (homes other)
    exact (sound other).of_node here.generation fun key drops => (here.dropped key drops).2
  refine ⟨?_, keyed, ?_, ?_, ?_, ?_⟩
  · rw [← size]
    exact List.length_set
  · intro place
    rw [Mesh.node_of_set]
    split
    · exact (CacheNode.serve_quiet (reachable index) quiet run).reachable
    · exact reachable place
  · intro place key slot held
    have within := Mesh.length_pos_of_slot held
    rw [show (mesh.ofNode member index (call.Drops answer)
      (mesh.nodes.set index served)).nodes.length = mesh.nodes.length from List.length_set] at within
    have before := (lessened within).slots key slot held
    apply (slots place key slot before).of_node
    intro drops
    rw [((lessened within).dropped key drops).1] at held
    cases held
  · intro other
    by_cases same : other = member
    · subst same
      rw [Function.update_self]
      exact Hand.Sound.of_quiet (reachable index) quiet run (lessened (homes other)).generation
        (sounds other) move
    · rw [Function.update_of_ne same]
      exact sounds other
  · intro other key place owes
    by_cases same : other = member
    · subst same
      rw [Function.update_self]
      exact debts_of_node (sound other) (reachable index) run (debts other) move key place owes
    · rw [Function.update_of_ne same]
      exact debts other key place owes.1

omit [DecidableEq ι] in
/-- A fill puts in what the reader holds, and only while that is still current. -/
theorem Coherent.of_fill {generation : Nat} {keys : List K} {value : K → Option E} {key : K}
    {answer : Except StoreError Bool} {served : CacheNode K E}
    (coherent : Coherent family clients n mesh hands)
    (holds : hands member = .holding generation keys value) (among : key ∈ keys)
    (run : (mesh.node (clients member).placement.home).serve
      (.putIf key (.ofOption (value key)) generation) = (answer, served)) :
    Coherent family clients n
      (mesh.ofNode member (clients member).placement.home (fun _ => False)
        (mesh.nodes.set (clients member).placement.home served)) hands := by
  obtain ⟨size, keyed, reachable, slots, sound, debts⟩ := coherent
  obtain ⟨reached, generation, filled⟩ := CacheNode.serve_putIf (reachable _) run
  have still : ∀ place,
      ((mesh.ofNode member (clients member).placement.home (fun _ => False)
        (mesh.nodes.set (clients member).placement.home served)).node place).generation =
      (mesh.node place).generation := by
    intro place
    rw [Mesh.node_of_set]
    split
    next here =>
      obtain ⟨rfl, _⟩ := here
      exact generation
    next => rfl
  refine ⟨?_, keyed, ?_, ?_, ?_, fun other key place owes => debts other key place owes.1⟩
  · rw [← size]
    exact List.length_set
  · intro place
    rw [Mesh.node_of_set]
    split
    · exact reached
    · exact reachable place
  · intro place other slot held
    rw [Mesh.node_of_set] at held
    refine Mesh.Current.of_node ?_ fun dropped => dropped.2
    split at held
    next here =>
      obtain ⟨rfl, _⟩ := here
      rcases filled other slot held with before | ⟨rfl, rfl, noted⟩
      · exact slots _ other slot before
      · have holder := sound member
        rw [holds] at holder
        rw [Slot.toOption_ofOption]
        exact holder.2 noted other among
    next => exact slots place other slot held
  · intro other
    refine (sound other).of_node (Nat.le_of_eq (still _).symm) fun key dropped => ?_
    exact dropped.2.elim

theorem Coherent.of_node {index : Nat} {call : CacheCall K E} {answer : call.Answer}
    {served : CacheNode K E} (covers : ∀ member, (clients member).placement.Covers n)
    (coherent : Coherent family clients n mesh hands)
    (run : (mesh.node index).serve call = (answer, served))
    (move : Hand.Moves family (clients member).placement (hands member) (.node index call) answer
      next) :
    Coherent family clients n
      (mesh.ofNode member index (call.Drops answer) (mesh.nodes.set index served))
      (Function.update hands member next) := by
  cases filling : call.fills with
  | false => exact coherent.of_quiet covers filling run move
  | true =>
    generalize holds : hands member = hand at move
    cases move with
    | keeps quiet => exact absurd (filling.symm.trans quiet) (by simp)
    | fills answer among =>
      rw [← holds, Function.update_eq_self]
      exact coherent.of_fill holds among run
    | breaks =>
      have broken := coherent.sound member
      rw [holds] at broken
      exact broken.elim
    | _ => simp [CacheCall.fills] at filling

theorem Coherent.of_move [DecidableEq E] {request : MeshCall K E} {answer : request.Answer}
    {after : Mesh ι K E} (lawful : family.Lawful)
    (covers : ∀ member, (clients member).placement.Covers n)
    (coherent : Coherent family clients n mesh hands)
    (served : Mesh.service family clients member request mesh answer after)
    (move : Hand.Moves family (clients member).placement (hands member) request answer next) :
    Coherent family clients n after (Function.update hands member next) := by
  cases request with
  | world call =>
    obtain ⟨_, ⟨world, last, seen, run, rfl⟩, rfl⟩ := served
    exact coherent.of_world lawful covers seen run move
  | node index call =>
    obtain ⟨nodes, served, rfl⟩ := served
    obtain ⟨_, run, rfl⟩ := Mesh.served_by_node served
    exact coherent.of_node covers run move

end Steps

section Runs

variable [DecidableEq ι] [DecidableEq K] [DecidableEq E] {jobs : ι → Job K E}
  {start crew : Crew (meshCalls K E) (Mesh ι K E) fun member => (jobs member).Answer}

/-- However the calls of all members interleave, a slot from which nobody has yet to remove its key is the
current row; and who is done has nothing left to remove. -/
theorem slots_coherent (lawful : family.Lawful)
    (covers : ∀ member, (clients member).placement.Covers n)
    (empty : start.state.nodes = List.replicate n {})
    (settled : ∀ member key index, ¬ start.state.owes member key index)
    (keyed : start.state.table.Keyed family)
    (tasks : ∀ member, start.tasks member =
      ((jobs member).program family).overMesh (clients member).placement)
    (reached : Crew.Reachable (Mesh.service family clients) start crew) :
    (∀ index key slot, (crew.state.node index).slots.get? key = some slot →
      (∀ member, ¬ crew.state.owes member key index) →
      slot = .ofOption (crew.state.table.rows.get? key) ∧
        ∀ entity, slot = .present entity → family.key entity = some key) ∧
    ∀ member result, crew.tasks member = .done result →
      ∀ key index, ¬ crew.state.owes member key index := by
  have fresh : ∀ index, start.state.node index = {} := by
    intro index
    unfold Mesh.node
    rw [empty, List.getElem?_replicate]
    split
    · rfl
    · rfl
  have coherent : Coherent family clients n start.state fun _ => .free := by
    refine ⟨?_, keyed, ?_, ?_, fun _ => trivial, ?_⟩
    · rw [empty, List.length_replicate]
    · intro index
      rw [fresh]
    · intro index key slot held
      rw [fresh] at held
      cases held
    · intro member key index owes
      exact absurd owes (settled member key index)
  have follows : ∀ member, (start.tasks member).Follows
      (Hand.Moves family (clients member).placement) (fun hand _ => hand.Clear) .free := by
    intro member
    rw [tasks member]
    exact Job.program_follows
  obtain ⟨hands, coherent, follows⟩ := Crew.Reachable.phases (Coherent family clients n)
    (fun coherent served move => coherent.of_move lawful covers served move) coherent follows reached
  constructor
  · intro index key slot held nobody
    have same : slot.toOption = crew.state.table.rows.get? key := by
      rcases coherent.slots index key slot held with same | ⟨member, owes⟩
      · exact same
      · exact absurd owes (nobody member)
    refine ⟨by rw [← same, Slot.ofOption_toOption], ?_⟩
    rintro entity rfl
    exact coherent.keyed key entity same.symm
  · intro member result done key index owes
    obtain ⟨nodes, hold, among⟩ := coherent.debts member key index owes
    have clear := follows member
    rw [done, hold] at clear
    have none : nodes = [] := clear
    rw [none] at among
    cases among

end Runs

section Lookups

def lookups : Fin 3 → Job Int64 Account
  | 0 | 2 => .get 1
  | 1 => .write {} (.updateOrCreate 1)

def branches (member : Fin 3) : Client Int64 Account where
  placement := if member = 1 then { home := 1, peers := [0] } else { home := 0, peers := [1] }
  reading _ := 0
  mutate account := ({ account with balance := account.balance + 5 }, .changed)
  create _ := .fresh "ann" 10

def hall : Crew (meshCalls Int64 Account) (Mesh (Fin 3) Int64 Account)
    fun member => (lookups member).Answer :=
  ⟨{ nodes := [{}, {}] }, fun member =>
    ((lookups member).program Account.family).overMesh (branches member).placement⟩

theorem hall_covers (member : Fin 3) : (branches member).placement.Covers 2 := by
  unfold branches
  by_cases second : member = 1
  · simp only [second, if_true]
    exact ⟨by decide, by decide⟩
  · simp only [second, if_false]
    exact ⟨by decide, by decide⟩

def ended {V : Vocabulary} {α : Type} : Task V α → Bool
  | .done _ => true
  | .call _ _ => false

theorem done_of_ended {V : Vocabulary} {α : Type} {task : Task V α} (finished : ended task = true) :
    ∃ result, task = .done result := by
  cases task with
  | done result => exact ⟨result, rfl⟩
  | call => simp [ended] at finished

/-- The first look-up has fetched nothing when the account is opened, and so fills no slot. The second
fills the slot of the first node with the account, which is coherent when all are done. -/
theorem slots_coherent_lookups :
    ∃ crew account, Crew.Reachable (Mesh.service Account.family branches) hall crew ∧
      (∀ member, ∃ result, crew.tasks member = .done result) ∧
      (crew.state.node 0).slots.get? 1 = some (.present account) ∧
      crew.state.table.rows.get? 1 = some account := by
  obtain ⟨looked, first, missed, seen⟩ :=
    Mesh.reachable_of_advance Account.family branches hall 0 3 { nodes := [{}, {}] } ⟨rfl, rfl⟩
  have waiting : looked.tasks 1 = hall.tasks 1 := by
    rw [missed, Function.update_of_ne (by decide)]
  obtain ⟨opened, second, made, seen⟩ :=
    Mesh.reachable_of_advance Account.family branches looked 1 30 _ seen
  have holding := congrFun missed 0
  rw [Function.update_self] at holding
  have still : opened.tasks 0 = looked.tasks 0 := by
    rw [made, Function.update_of_ne (by decide)]
  obtain ⟨late, third, refused, seen⟩ :=
    Mesh.reachable_of_advance Account.family branches opened 0 5 _ seen
  have untouched : late.tasks 2 = hall.tasks 2 := by
    rw [refused, Function.update_of_ne (by decide), made, Function.update_of_ne (by decide), missed,
      Function.update_of_ne (by decide)]
  obtain ⟨last, fourth, filled, seen⟩ :=
    Mesh.reachable_of_advance Account.family branches late 2 5 _ seen
  have reached := ((first.trans second).trans third).trans fourth
  rw [still, holding, waiting, untouched] at seen
  have finished : ∀ member, ended (last.tasks member) = true := by
    intro member
    match member with
    | 0 =>
      rw [filled, Function.update_of_ne (by decide), refused, Function.update_self, still, holding,
        waiting]
      decide +kernel
    | 1 =>
      rw [filled, Function.update_of_ne (by decide), refused, Function.update_of_ne (by decide), made,
        Function.update_self, waiting]
      decide +kernel
    | 2 =>
      rw [filled, Function.update_self, still, holding, waiting, untouched]
      decide +kernel
  have done := fun member => done_of_ended (finished member)
  have kept : ((last.state.node 0).slots.get? 1).map Slot.isAbsent = some false := by
    unfold Mesh.node
    rw [← seen.2]
    decide +kernel
  obtain ⟨slot, held, present⟩ := Option.map_eq_some_iff.mp kept
  obtain ⟨coherent, clear⟩ := slots_coherent Account.family_lawful hall_covers rfl
    (fun _ _ _ => id) (by intro key row found; cases found) (fun _ => rfl) reached
  have nobody : ∀ member, ¬ last.state.owes member 1 0 := by
    intro member
    obtain ⟨result, done⟩ := done member
    exact clear member result done 1 0
  obtain ⟨same, _⟩ := coherent 0 1 slot held nobody
  cases slot with
  | absent => simp [Slot.isAbsent] at present
  | present account =>
    refine ⟨last, account, reached, done, held, ?_⟩
    cases row : last.state.table.rows.get? 1 with
    | none =>
      rw [row] at same
      cases same
    | some found =>
      rw [row] at same
      rw [Slot.present.inj same]

end Lookups

end OptimisticStore
