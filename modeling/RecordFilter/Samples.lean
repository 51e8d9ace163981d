import RecordFilter.Schema
import RecordFilter.Value

/-!
# Sample record types

Record types to try requests on: the customers of a shop with their orders, a tree of nodes, and a
record with a field of every type. A record is described by some of its fields; the others are
blank.
-/

namespace RecordFilter

/-- The value of a field about which nothing is known. Records are filled in to a depth. -/
def FieldType.blank {ρ : Type} (catalog : Catalog ρ) : Nat → FieldType ρ → Value
  | _, bool => .bool false
  | _, int _ => .int ⟨0, by decide, by decide⟩
  | _, float _ => .float .zero
  | _, string => .str ""
  | _, dateTime => .dateTime (.startOf .epoch)
  | _, localDateTime => .localDateTime (.startOf .epoch)
  | _, date => .date .epoch
  | _, enum type => .enum (type.members.headD "")
  | _, optional _ => .null
  | _, list _ => .list []
  | 0, record _ => .record []
  | depth + 1, record reference =>
    .record ((catalog reference).fields.map fun f => (f.name, f.type.blank catalog depth))

/-- The sample record types. -/
inductive Sample where
  | item
  | order
  | address
  | customer
  | node
  | everything
deriving DecidableEq

namespace Sample

def all : List Sample := [item, order, address, customer, node, everything]

def status : EnumType := ⟨"Status", ["Active", "Inactive", "Suspended"]⟩

def orderState : EnumType := ⟨"OrderState", ["Open", "Shipped", "Cancelled"]⟩

def tier : EnumType := ⟨"Tier", ["Bronze", "Silver", "Gold"]⟩

def name : Sample → String
  | item => "Item"
  | order => "Order"
  | address => "Address"
  | customer => "Customer"
  | node => "Node"
  | everything => "Everything"

def fields : Sample → List (Field Sample)
  | item => [⟨"sku", .string⟩, ⟨"price", .float .double⟩, ⟨"quantity", .int .uint32⟩]
  | order => [
      ⟨"total", .float .double⟩, ⟨"state", .enum orderState⟩, ⟨"items", .list (.record item)⟩]
  | address => [⟨"city", .string⟩, ⟨"zip_code", .optional .string⟩]
  | customer => [
      ⟨"name", .string⟩, ⟨"age", .int .int32⟩, ⟨"status", .enum status⟩, ⟨"vip", .bool⟩,
      ⟨"address", .optional (.record address)⟩, ⟨"orders", .list (.record order)⟩,
      ⟨"returns", .list (.record order)⟩, ⟨"tags", .list .string⟩, ⟨"joined", .date⟩]
  | node => [
      ⟨"label", .string⟩, ⟨"weight", .optional (.int .uint16)⟩, ⟨"tier", .enum tier⟩,
      ⟨"children", .list (.record node)⟩, ⟨"next", .optional (.record node)⟩]
  | everything => [
      ⟨"n_i8", .int .int8⟩, ⟨"n_i16", .int .int16⟩, ⟨"n_i32", .int .int32⟩,
      ⟨"n_i64", .int .int64⟩, ⟨"n_isize", .int .intSize⟩, ⟨"n_u8", .int .uint8⟩,
      ⟨"n_u16", .int .uint16⟩, ⟨"n_u32", .int .uint32⟩, ⟨"n_u64", .int .uint64⟩,
      ⟨"n_usize", .int .uintSize⟩, ⟨"f_32", .float .single⟩, ⟨"f_64", .float .double⟩,
      ⟨"flag", .bool⟩, ⟨"text", .string⟩, ⟨"small", .string⟩, ⟨"at", .dateTime⟩,
      ⟨"local", .localDateTime⟩, ⟨"day", .date⟩, ⟨"tier", .enum tier⟩,
      ⟨"maybe_int", .optional (.int .int64)⟩, ⟨"maybe_text", .optional .string⟩,
      ⟨"maybe_flag", .optional .bool⟩, ⟨"maybe_tier", .optional (.enum tier)⟩,
      ⟨"maybe_at", .optional .dateTime⟩, ⟨"boxed", .record address⟩,
      ⟨"root", .optional (.record node)⟩, ⟨"nodes", .list (.record node)⟩,
      ⟨"maybe_tags", .optional (.list .string)⟩, ⟨"sparse", .list (.optional (.int .int32))⟩,
      ⟨"matrix", .list (.list (.int .int32))⟩, ⟨"floats", .list (.float .double)⟩,
      ⟨"tiers", .list (.enum tier)⟩]

/-- The sample record types behind their references. -/
def catalog : Catalog Sample := fun s => ⟨s.name, s.fields⟩

def ofName? (name : String) : Option Sample := all.find? (·.name == name)

/-- The record that some of its fields describe. -/
def complete (s : Sample) (given : List (String × Value)) : Value :=
  .record (s.fields.map fun f => (f.name, (given.lookup f.name).getD (f.type.blank catalog 2)))

end Sample

end RecordFilter
