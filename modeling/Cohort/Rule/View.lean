import Cohort.Rule.Field

namespace Cohort

/-- A contact with its tags, and its attributes once they have been read. -/
structure View where
  subject : Subject
  attributes : Option (Except AttributesProblem (List (String × String))) := none
  /-- What has been read is what the attribute document says. -/
  faithful : ∀ read, attributes = some read → read = subject.contact.attributes := by simp

namespace View

def ofSubject (subject : Subject) : View :=
  { subject }

/-- The attributes of the contact, and the view that keeps them. -/
def readAttributes (view : View) : Except AttributesProblem (List (String × String)) × View :=
  match view.attributes with
  | some read => (read, view)
  | none =>
      let read := view.subject.contact.attributes
      (read,
        { subject := view.subject
          attributes := some read
          faithful := fun _ same => (Option.some.inj same).symm })

@[simp] theorem readAttributes_fst (view : View) :
    view.readAttributes.1 = view.subject.contact.attributes := by
  unfold readAttributes
  cases held : view.attributes with
  | none => rfl
  | some read => exact view.faithful read held

@[simp] theorem readAttributes_subject (view : View) :
    view.readAttributes.2.subject = view.subject := by
  unfold readAttributes
  cases view.attributes <;> rfl

/-- The attribute under a key; none also if the attributes cannot be had. -/
def attribute? (view : View) (key : String) : Option String × View :=
  match view.readAttributes with
  | (.error _, view) => (none, view)
  | (.ok attributes, view) => (attributes.lookup key, view)

def resolve (view : View) : Field → Resolved × View
  | .customAttribute key =>
      let (value, view) := view.attribute? key
      (.ofOptional value, view)
  | field => (view.subject.resolve field, view)

@[simp] theorem attribute?_fst (view : View) (key : String) :
    (view.attribute? key).1 = view.subject.contact.attribute? key := by
  have read := view.readAttributes_fst
  unfold attribute? Contact.attribute?
  rw [← read]
  cases view.readAttributes with
  | mk answer after => cases answer <;> rfl

@[simp] theorem attribute?_subject (view : View) (key : String) :
    (view.attribute? key).2.subject = view.subject := by
  have kept := view.readAttributes_subject
  unfold attribute?
  rw [← kept]
  cases view.readAttributes with
  | mk answer after => cases answer <;> rfl

@[simp] theorem resolve_fst (view : View) (field : Field) :
    (view.resolve field).1 = view.subject.resolve field := by
  cases field with
  | customAttribute key => exact congrArg Resolved.ofOptional (view.attribute?_fst key)
  | _ => rfl

@[simp] theorem resolve_subject (view : View) (field : Field) :
    (view.resolve field).2.subject = view.subject := by
  cases field with
  | customAttribute key => exact view.attribute?_subject key
  | _ => rfl

end View

end Cohort
