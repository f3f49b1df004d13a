import JsonShape.Json.Writer
import JsonShape.Text.Literal

/-! Built-in samples.

Each sample is a value that shows one feature of inference, with a name and a line that describes it.
-/

set_option autoImplicit false

namespace JsonShape

open Json (Value Member)

structure NamedSample where
  name : Text
  description : Text
  value : Value

namespace NamedSample

def text (s : NamedSample) : Text := s.value.write

/-! ## Values -/

def string (s : String) : Value := .string s

def count (n : Nat) : Value := .number (.integer n)

/-- A price with two decimals, given in hundredths. -/
def price (hundredths : Nat) : Value :=
  let digits (n : Nat) : List Json.Digit :=
    (Nat.toDigits 10 n).map fun c => Json.Digit.last (c.toNat - 48)
  .number (.real
    { negative := false
      whole := digits (hundredths / 100)
      fraction := [Json.Digit.last (hundredths / 10), Json.Digit.last hundredths]
      exponentNegative := false
      exponent := [] })

def member (key : String) (v : Value) : Member := (key, v)

def userProfile : NamedSample where
  name := "simple-user-profile"
  description := "Basic object with string, number, and boolean fields"
  value := .object [
    member "name" (string "Alice Johnson"),
    member "email" (string "alice@example.com"),
    member "age" (count 30),
    member "active" (.bool true)]

def orderItem (product name : String) (quantity hundredths category : Nat) (categoryName : String) :
    Value :=
  .object [
    member "productId" (string product),
    member "name" (string name),
    member "quantity" (count quantity),
    member "price" (price hundredths),
    member "category" (.object [
      member "id" (count category),
      member "name" (string categoryName)])]

def order : NamedSample where
  name := "ecommerce-order"
  description := "Nested object with arrays, shipping address, and line items"
  value := .object [
    member "orderId" (string "ORD-2025-001"),
    member "customer" (.object [
      member "id" (count 42),
      member "name" (string "Bob Smith"),
      member "email" (string "bob@shop.com")]),
    member "items" (.array [
      orderItem "SKU-100" "Wireless Headphones" 2 5999 5 "Electronics",
      orderItem "SKU-200" "Laptop Stand" 1 3999 8 "Accessories"]),
    member "shipping" (.object [
      member "method" (string "express"),
      member "address" (.object [
        member "street" (string "123 Main St"),
        member "city" (string "Portland"),
        member "state" (string "OR"),
        member "zip" (string "97201"),
        member "country" (string "US")]),
      member "trackingNumber" (string "1Z999AA10123456784")]),
    member "total" (price 15997),
    member "currency" (string "USD")]

def optionalFields : NamedSample where
  name := "optional-fields"
  description := "Array of objects where some objects omit keys, detects optional fields"
  value := .array [
    .object [
      member "id" (count 1),
      member "name" (string "Alice"),
      member "email" (string "alice@example.com"),
      member "phone" (string "+1-555-0100")],
    .object [
      member "id" (count 2),
      member "name" (string "Bob"),
      member "email" (string "bob@example.com")],
    .object [
      member "id" (count 3),
      member "name" (string "Charlie"),
      member "phone" (string "+1-555-0300"),
      member "nickname" (string "Chuck")]]

def mixedArrays : NamedSample where
  name := "mixed-array-types"
  description := "Arrays with mixed element types, generates union types"
  value := .object [
    member "mixedPrimitives" (.array [count 1, string "two", .bool true, .null]),
    member "tags" (.array [string "alpha", string "beta", string "gamma"]),
    member "scores" (.array [count 95, count 87, count 92, count 100]),
    member "metadata" (.object [
      member "values" (.array [count 42, string "hello", .bool false])])]

def nullablesAndDates : NamedSample where
  name := "nullables-and-dates"
  description := "Fields with null values and ISO-8601 date strings (use --detect-dates)"
  value := .object [
    member "user_id" (count 1001),
    member "user_name" (string "Diana Prince"),
    member "created_at" (string "2025-01-15T09:30:00.000Z"),
    member "updated_at" (string "2025-06-20T14:45:30.000Z"),
    member "deleted_at" .null,
    member "last_login" (string "2025-12-01T08:00:00Z"),
    member "bio" .null,
    member "avatar_url" (string "https://example.com/avatars/diana.jpg"),
    member "settings" (.object [
      member "theme" (string "dark"),
      member "notifications_enabled" (.bool true),
      member "language" (string "en")])]

end NamedSample

def samples : List NamedSample :=
  [.userProfile, .order, .optionalFields, .mixedArrays, .nullablesAndDates]

def findSample? (name : Text) : Option NamedSample := samples.find? (·.name = name)

def unknownSampleMessage (name : Text) : Text := "No sample named " ++ name.literal

end JsonShape
