namespace Cohort

/-- A person in the records of an owner. -/
structure Contact where
  id : Int
  owner : String
  email : Option String := none
  phoneNumber : Option String := none
  firstName : Option String := none
  lastName : Option String := none
  country : Option String := none
  city : Option String := none
  postalCode : Option String := none
  /-- The JSON text of the custom attributes. -/
  customAttributes : Option String := none
  isActive : Bool := true
  isDeleted : Bool := false
  deriving DecidableEq

/-- Does the contact take part in evaluations? -/
def Contact.isLive (contact : Contact) : Bool :=
  contact.isActive && !contact.isDeleted

/-- A tag given to a contact.  Taking the tag away marks the assignment deleted. -/
structure TagAssignment where
  contact : Int
  tag : Int
  isDeleted : Bool := false
  deriving DecidableEq

end Cohort
